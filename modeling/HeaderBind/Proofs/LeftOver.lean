import HeaderBind.CommandLine.Parsed
import HeaderBind.Proofs.Spelling
/-!
# What is left of a command line

What a flag claims is itself and, where it waits for one, the value behind it. An accepted command line
leaves over, in their order, the arguments that no flag claims in front of the first free double dash, and
all from that dash on. By the late rules the letters of flags may have others behind them in one argument,
and those are left over as an argument of their own.
-/
namespace HeaderBind.CommandLine

/-- Letters of flags without a value, the last one of a flag that takes one. -/
inductive OpenRun : List Char → Prop where
  | last {c : Char} {f : Flag} (letter : f.letter? = some c) (takes : f.takesValue = true) : OpenRun [c]
  | more {c : Char} {text : List Char} {f : Flag} (letter : f.letter? = some c)
      (bare : f.takesValue = false) (rest : OpenRun text) : OpenRun (c :: text)

/-- An argument whose flag, or the last of whose flags, takes its value from the next argument. By the early
rules the letters of the flags may stand behind an equals sign. -/
inductive Waiting (release : Release) (a : String) : Prop where
  | alone {f : Flag} {short : Bool} (spells : Spells a f short []) (takes : f.takesValue = true)
  | run {f : Flag} {text : List Char} (spells : Spells a f true text) (bare : f.takesValue = false)
      (isOpen : OpenRun text)
  | equals {f : Flag} {text : List Char} (early : release = .early) (spells : Spells a f true ('=' :: text))
      (bare : f.takesValue = false) (isOpen : OpenRun text)

/-- What follows the letters of flags without a value in a text, if that starts with a letter of no flag. -/
def stray? : List Char → Option (List Char)
  | [] => none
  | c :: text =>
    match Flag.ofLetter? c with
    | some f => if f.takesValue then none else stray? text
    | none => if c = '-' ∨ c = '=' then none else some (c :: text)

section

variable {f : Flag} {c : Char} {text : List Char}

theorem stray?_of_letter (letter : f.letter? = some c) :
    stray? (c :: text) = if f.takesValue then none else stray? text := by
  rw [stray?, Flag.ofLetter?_eq_some.mpr letter]

theorem stray?_dash : stray? ('-' :: text) = none := by
  simp [stray?, (by decide : Flag.ofLetter? '-' = none)]

theorem stray?_equals : stray? ('=' :: text) = none := by
  simp [stray?, (by decide : Flag.ofLetter? '=' = none)]

end

namespace Bundle

/-- Whether there is a flag that waits for the next argument. -/
def waits : Except UsageError Bundle → Bool
  | .ok ⟨_, .waits _⟩ => true
  | _ => false

/-- The letters that are no flags. -/
def strays? : Except UsageError Bundle → Option (List Char)
  | .ok ⟨_, .stray text⟩ => some text
  | _ => none

section

variable {f : Flag} {c : Char}

@[simp]
theorem waits_behind (x : Except UsageError Bundle) : waits (x.map (behind f)) = waits x := by
  rcases x with _ | ⟨_, _ | _ | _⟩ <;> rfl

@[simp]
theorem strays?_behind (x : Except UsageError Bundle) : strays? (x.map (behind f)) = strays? x := by
  rcases x with _ | ⟨_, _ | _ | _⟩ <;> rfl

@[simp]
theorem waits_valued {release : Release} (text : List Char) :
    waits (.ok (valued release f text)) = false := rfl

@[simp]
theorem strays?_valued {release : Release} (text : List Char) :
    strays? (.ok (valued release f text)) = none := rfl

@[simp]
theorem waits_single : waits (.ok (single f)) = f.takesValue := by
  cases takes : f.takesValue <;> simp [single, takes, waits]

@[simp]
theorem strays?_single : strays? (.ok (single f)) = none := by
  cases takes : f.takesValue <;> simp [single, takes, strays?]

theorem not_openRun_nil : ¬ OpenRun [] := nofun

theorem openRun_cons {text : List Char} (letter : f.letter? = some c) :
    OpenRun (c :: text) ↔ if f.takesValue then text = [] else OpenRun text := by
  have only {g : Flag} (same : g.letter? = some c) : g = f :=
    Option.some.inj ((Flag.ofLetter?_eq_some.mpr same).symm.trans (Flag.ofLetter?_eq_some.mpr letter))
  constructor
  · intro run
    cases run with
    | last same takes =>
      obtain rfl := only same
      simp [takes]
    | more same bare rest =>
      obtain rfl := only same
      simpa [bare] using rest
  · intro run
    cases takes : f.takesValue with
    | true =>
      obtain rfl : text = [] := by simpa [takes] using run
      exact .last letter takes
    | false => exact .more letter takes (by simpa [takes] using run)

/-- No run starts with a letter of no flag. -/
theorem not_openRun_of_unknown {text : List Char} (unknown : Flag.ofLetter? c = none) :
    ¬ OpenRun (c :: text) := by
  intro run
  cases run with
  | last letter _ | more letter _ _ => cases unknown.symm.trans (Flag.ofLetter?_eq_some.mpr letter)

theorem openEarly?_takes (takes : f.takesValue = true) (text : List Char) :
    openEarly? f text = .ok (valued .early f text) := by
  cases text <;> simp [openEarly?, takes]

/-- Behind a flag without a value, the flags in a text end in one that waits where the text is an open
run. -/
theorem waits_openEarly (bare : f.takesValue = false) (text : List Char) :
    waits (openEarly? f text) = true ↔ OpenRun text := by
  induction text generalizing f with
  | nil => simp [openEarly?, bare, waits, not_openRun_nil]
  | cons c rest ih =>
    rw [openEarly?, if_neg (by simp [bare])]
    cases known : Flag.ofLetter? c with
    | none => exact iff_of_false nofun (not_openRun_of_unknown known)
    | some g =>
      rw [openRun_cons (Flag.ofLetter?_eq_some.mp known)]
      cases rest with
      | nil => cases takes : g.takesValue <;> simp [takes, not_openRun_nil]
      | cons d more =>
        cases takes : g.takesValue with
        | true => simp [openEarly?_takes takes]
        | false => simpa using ih takes

theorem strays?_openEarly (text : List Char) : strays? (openEarly? f text) = none := by
  induction text generalizing f with
  | nil => cases takes : f.takesValue <;> simp [openEarly?, takes, strays?, valued]
  | cons c rest ih =>
    cases takes : f.takesValue with
    | true => simp [openEarly?_takes takes]
    | false =>
      rw [openEarly?, if_neg (by simp [takes])]
      cases Flag.ofLetter? c with
      | none => rfl
      | some g => cases rest <;> simp [ih]

/-- What stands behind a flag waits for the next argument where it is nothing, or an open run behind a flag
without a value. -/
theorem waits_openLate (tail : List Char) :
    waits (openLate? f tail) = true ↔ if f.takesValue then tail = [] else OpenRun tail := by
  fun_induction openLate? f tail with
  | case1 f => cases takes : f.takesValue <;> simp [takes, not_openRun_nil]
  | case2 f value takes => simp [takes]
  | case3 f value bare =>
    simpa [bare, waits] using not_openRun_of_unknown (by decide : Flag.ofLetter? '=' = none)
  | case4 f c rest other takes => simp [takes]
  | case5 f rest bare =>
    simpa [bare, waits] using not_openRun_of_unknown (by decide : Flag.ofLetter? '-' = none)
  | case6 f c rest other bare dash unknown => simpa [bare, waits] using not_openRun_of_unknown unknown
  | case7 f c rest other bare dash g known ih =>
    rw [waits_behind, ih, if_neg bare, openRun_cons (Flag.ofLetter?_eq_some.mp known)]

/-- Behind a flag without a value, letters that are no flags follow those that are. -/
theorem strays?_openLate (tail : List Char) :
    strays? (openLate? f tail) = if f.takesValue then none else stray? tail := by
  fun_induction openLate? f tail with
  | case1 f => cases takes : f.takesValue <;> simp [stray?]
  | case2 f value takes => simp [takes]
  | case3 f value bare => simp [bare, strays?, stray?_equals]
  | case4 f c rest other takes => simp [takes]
  | case5 f rest bare => simp [bare, strays?, stray?_dash]
  | case6 f c rest other bare dash unknown =>
    simp [bare, strays?, stray?, unknown, dash, show c ≠ '=' from fun same => other same]
  | case7 f c rest other bare dash g known ih => simp [bare, ih, stray?, known]

theorem strays?_ofFlag_early {short : Bool} (tail : List Char) :
    strays? (ofFlag .early f short tail) = none := by
  unfold ofFlag
  split
  · contradiction
  · exact strays?_single
  · split
    · exact strays?_openEarly _
    · rfl
  · exact strays?_openEarly _

/-- The flags of an argument end in one that waits for its value where it stands alone, or where letters
without values lead to it; by the early rules these may stand behind an equals sign. -/
theorem waits_ofFlag {release : Release} {short : Bool} (tail : List Char) :
    waits (ofFlag release f short tail) = true ↔
      if f.takesValue then tail = []
      else OpenRun tail ∨
        release = .early ∧ short = true ∧ ∃ text, tail = '=' :: text ∧ OpenRun text := by
  cases release with
  | late => simp [ofFlag, waits_openLate]
  | early =>
    cases tail with
    | nil => cases takes : f.takesValue <;> simp [ofFlag, takes, not_openRun_nil]
    | cons c rest =>
      by_cases sign : c = '='
      · subst sign
        have shut : ¬ OpenRun ('=' :: rest) := not_openRun_of_unknown (by decide)
        cases takes : f.takesValue with
        | true => simp [ofFlag, takes, openEarly?_takes takes]
        | false =>
          cases short with
          | true => simpa [ofFlag, shut] using waits_openEarly takes rest
          | false => simp [ofFlag, takes, shut, waits]
      · have glued : ofFlag .early f short (c :: rest) = openEarly? f (c :: rest) := by
          simp [ofFlag, sign]
        cases takes : f.takesValue with
        | true => simp [glued, openEarly?_takes takes]
        | false => simpa [glued, sign] using waits_openEarly takes (c :: rest)

end

end Bundle

/-- What is left over starts with a letter of no flag. -/
theorem head_of_stray {text left : List Char} (found : stray? text = some left) :
    ∃ c more, left = c :: more ∧ Flag.ofLetter? c = none ∧ c ≠ '-' := by
  fun_induction stray? text with
  | case1 => cases found
  | case2 c text f known takes => cases found
  | case3 c text f known bare ih => exact ih found
  | case4 c text unknown sign => cases found
  | case5 c text unknown sign =>
    cases found
    exact ⟨c, text, rfl, unknown, fun dash => sign (.inl dash)⟩

theorem not_spelled_remnant {text left : List Char} (found : stray? text = some left) :
    Bundle.remnant left ≠ "--" ∧ ¬ Spelled (Bundle.remnant left) := by
  obtain ⟨c, more, rfl, unknown, dash⟩ := head_of_stray found
  have chars : (Bundle.remnant (c :: more)).toList = '-' :: c :: more := String.toList_ofList
  have letterless {f : Flag} : f.letter? ≠ some c := fun letter => by
    cases unknown.symm.trans (Flag.ofLetter?_eq_some.mpr letter)
  refine ⟨fun same => dash ?_, ?_⟩
  · rw [same] at chars
    cases chars
    rfl
  · rintro ⟨f, _, _, spells⟩
    cases spells with
    | exact spelled =>
      rcases Flag.spelling_cases spelled with ⟨d, letter, whole⟩ | ⟨d, text, whole⟩ <;>
        cases chars.symm.trans whole
      · exact letterless letter
      · exact dash rfl
    | equals spelled whole =>
      rcases Flag.spelling_cases spelled with ⟨d, letter, parts⟩ | ⟨d, text, parts⟩ <;>
        rw [parts] at whole <;> cases chars.symm.trans whole
      · exact letterless letter
      · exact dash rfl
    | glued letter _ _ whole =>
      cases chars.symm.trans whole
      exact letterless letter

namespace Word

variable {release : Release} {a : String}

/-- Whether the last flag in the text waits for the next argument. -/
def waits (release : Release) : Word → Bool
  | flag f short tail => Bundle.waits (Bundle.ofFlag release f short tail)
  | _ => false

/-- What is left over of the text. -/
def strays? (release : Release) : Word → Option (List Char)
  | flag f short tail => Bundle.strays? (Bundle.ofFlag release f short tail)
  | _ => none

/-- Letters of flags that lead to one that waits are glued to a letter. -/
theorem short_of_openRun {f : Flag} {short : Bool} {tail : List Char} (spells : Spells a f short tail)
    (isOpen : OpenRun tail) : short = true := by
  cases spells with
  | exact _ => exact absurd isOpen Bundle.not_openRun_nil
  | equals _ _ => exact absurd isOpen (Bundle.not_openRun_of_unknown (by decide))
  | glued _ _ _ _ => rfl

theorem waits_of_not_flag {w : Word} (other : w.isFlag = false) : w.waits release = false := by
  cases w with
  | flag => cases other
  | plain | foreign => rfl

theorem waits_classify : (classify a).waits release = true ↔ Waiting release a := by
  constructor
  · intro waiting
    cases word : classify a with
    | plain | foreign =>
      rw [word] at waiting
      cases waiting
    | flag f short tail =>
      rw [word, waits, Bundle.waits_ofFlag] at waiting
      have spells := spells_of_classify word
      cases takes : f.takesValue with
      | true =>
        obtain rfl : tail = [] := by simpa [takes] using waiting
        exact .alone spells takes
      | false =>
        rw [takes, if_neg Bool.false_ne_true] at waiting
        rcases waiting with isOpen | ⟨early, rfl, text, rfl, isOpen⟩
        · obtain rfl := short_of_openRun spells isOpen
          exact .run spells takes isOpen
        · exact .equals early spells takes isOpen
  · intro waiting
    cases waiting with
    | alone spells takes => simp [classify_of_spells spells, waits, Bundle.waits_ofFlag, takes]
    | run spells bare isOpen =>
      simp [classify_of_spells spells, waits, Bundle.waits_ofFlag, bare, isOpen]
    | equals early spells bare isOpen =>
      simp [classify_of_spells spells, waits, Bundle.waits_ofFlag, bare, early, isOpen]

end Word

instance (release : Release) (a : String) : Decidable (Waiting release a) :=
  decidable_of_iff _ Word.waits_classify

/-- What is left over of an argument in which a flag is spelled: nothing by the early rules, and by the late
ones what follows the letters of flags. -/
def remnant? (release : Release) (a : String) : Option String :=
  match release with
  | .early => none
  | .late => if Spelled a then (stray? a.toList.tail).map Bundle.remnant else none

theorem Word.strays?_classify {release : Release} {a : String} :
    ((classify a).strays? release).map Bundle.remnant = remnant? release a := by
  cases release with
  | early =>
    cases classify a with
    | plain | foreign => rfl
    | flag f short tail => rw [strays?, Bundle.strays?_ofFlag_early, remnant?, Option.map_none]
  | late =>
    rw [remnant?]
    cases word : classify a with
    | plain | foreign =>
      rw [if_neg fun spelled => by simpa [word, isFlag] using isFlag_classify.mpr spelled]
      rfl
    | flag f short tail =>
      have spells := spells_of_classify word
      rw [if_pos ⟨f, short, tail, spells⟩, strays?, Bundle.ofFlag, Bundle.strays?_openLate]
      congr 1
      cases spells with
      | exact spelled =>
        rcases Flag.spelling_cases spelled with ⟨c, letter, chars⟩ | ⟨d, text, chars⟩ <;> rw [chars]
        · exact (stray?_of_letter letter).symm
        · rw [List.tail_cons, stray?_dash, stray?, ite_self]
      | equals spelled whole =>
        rw [whole]
        rcases Flag.spelling_cases spelled with ⟨c, letter, chars⟩ | ⟨d, text, chars⟩ <;> rw [chars]
        · exact (stray?_of_letter letter).symm
        · rw [List.cons_append, List.tail_cons, List.cons_append, stray?_dash, stray?_equals, ite_self]
      | glued letter _ _ whole =>
        rw [whole]
        exact (stray?_of_letter letter).symm

/-- The arguments that no flag claims: no flag is spelled in them, and the argument before them does not
wait for them. `awaited` says so of the first one. Of an argument with a flag there is what is left over of
it. -/
def unclaimed (release : Release) (awaited : Bool) : List String → List String
  | [] => []
  | a :: rest =>
    let later := unclaimed release (decide (Waiting release a)) rest
    if awaited then later
    else if Spelled a then (remnant? release a).toList ++ later
    else a :: later

section

variable {release : Release} {a : String} {awaited : Bool} {arguments rest : List String}

theorem unclaimed_sublist : (unclaimed release awaited arguments).Sublist
    (arguments.map fun a => (remnant? release a).getD a) := by
  induction arguments generalizing awaited with
  | nil => exact .slnil
  | cons a rest ih =>
    rw [unclaimed, List.map_cons]
    split
    · exact ih.cons _
    · split
      · cases remnant? release a with
        | none => exact ih.cons _
        | some left => exact ih.cons_cons left
      · rename_i unspelled
        have whole : remnant? release a = none := by cases release <;> simp [remnant?, unspelled]
        rw [whole]
        exact ih.cons_cons a

/-- What is left over of an argument is no double dash, and no flag is spelled in it. -/
theorem remnant_free {left : String} (found : remnant? release a = some left) :
    left ≠ "--" ∧ ¬ Spelled left := by
  cases release with
  | early => cases found
  | late =>
    rw [remnant?] at found
    split at found
    · obtain ⟨text, strays, rfl⟩ := Option.map_eq_some_iff.mp found
      exact not_spelled_remnant strays
    · cases found

theorem free_of_mem (dashless : "--" ∉ arguments) (free : a ∈ unclaimed release awaited arguments) :
    a ≠ "--" ∧ ¬ Spelled a := by
  induction arguments generalizing awaited with
  | nil => cases free
  | cons b rest ih =>
    rw [List.mem_cons, not_or] at dashless
    rw [unclaimed] at free
    split at free
    · exact ih dashless.2 free
    · split at free
      · rcases List.mem_append.mp free with left | later
        · exact remnant_free (Option.mem_toList.mp left)
        · exact ih dashless.2 later
      · rename_i unspelled
        rcases List.mem_cons.mp free with rfl | later
        · exact ⟨Ne.symm dashless.1, unspelled⟩
        · exact ih dashless.2 later

theorem decide_waiting : decide (Waiting release a) = (Word.classify a).waits release := by
  rw [Bool.eq_iff_iff, decide_eq_true_iff, Word.waits_classify]

theorem unclaimed_free (word : (Word.classify a).isFlag = false) :
    unclaimed release false (a :: rest) = a :: unclaimed release false rest := by
  have unspelled : ¬ Spelled a := fun spelled => by simp [Word.isFlag_classify.mpr spelled] at word
  simp [unclaimed, unspelled, decide_waiting, Word.waits_of_not_flag word]

theorem unclaimed_flag (word : (Word.classify a).isFlag = true) :
    unclaimed release false (a :: rest) =
      (((Word.classify a).strays? release).map Bundle.remnant).toList ++
        unclaimed release ((Word.classify a).waits release) rest := by
  simp [unclaimed, Word.isFlag_classify.mp word, decide_waiting, Word.strays?_classify]

theorem unclaimed_value (word : (Word.classify a).isFlag = false) :
    unclaimed release true (a :: rest) = unclaimed release false rest := by
  simp [unclaimed, decide_waiting, Word.waits_of_not_flag word]

end

namespace Parsed

variable {release : Release} {arguments : List String} {p : Parsed}

theorem map_withLeft {a : String} {x : Except Halt Parsed} (whole : x.map (withLeft a) = .ok p) :
    ∃ q, x = .ok q ∧ p = q.withLeft a := by
  cases x <;> cases whole
  exact ⟨_, rfl, rfl⟩

/-- Where flags are checked before the rest is taken apart, both went well. -/
theorem checked_map {given : List Given} {x : Except Halt Parsed} {f : Parsed → Parsed}
    (whole : (do checkGiven given; x.map f) = .ok p) : ∃ q, x = .ok q ∧ p = f q := by
  cases checked : checkGiven given with
  | error e =>
    rw [checked] at whole
    cases whole
  | ok _ =>
    rw [checked] at whole
    cases x <;> cases whole
    exact ⟨_, rfl, rfl⟩

theorem isValue_iff {a : String} : isValue a = true ↔ a ≠ "--" ∧ Word.classify a = .plain := by
  simp [isValue]

theorem erase_dropWhile (arguments : List String) :
    (arguments.dropWhile (· != "--")).erase "--" = (arguments.dropWhile (· != "--")).tail := by
  induction arguments with
  | nil => rfl
  | cons a rest ih => by_cases dash : a = "--" <;> simp [dash, ih]

theorem left_eq (accepted : read release arguments = .ok p) :
    p.left = unclaimed release false (arguments.takeWhile (· != "--")) ++
      arguments.dropWhile (· != "--") := by
  fun_induction read release arguments generalizing p with
  | case1 =>
    cases accepted
    rfl
  | case2 rest =>
    cases accepted
    rfl
  | case3 a rest dash word ih | case4 a rest dash word ih =>
    obtain ⟨q, whole, rfl⟩ := map_withLeft accepted
    simp [dash, unclaimed_free, word, Word.isFlag, withLeft, ih whole]
  | case5 => cases accepted
  | case6 a rest dash f short tail word complete bundle ih =>
    obtain ⟨q, whole, rfl⟩ := checked_map accepted
    simp [dash, unclaimed_flag, word, Word.isFlag, Word.waits, Word.strays?, bundle, Bundle.waits,
      Bundle.strays?, withGiven, ih whole]
  | case7 a rest dash f short tail word complete text bundle ih =>
    obtain ⟨q, whole, rfl⟩ := checked_map accepted
    simp [dash, unclaimed_flag, word, Word.isFlag, Word.waits, Word.strays?, bundle, Bundle.waits,
      Bundle.strays?, withGiven, withLeft, ih whole]
  | case8 => cases accepted
  | case9 a dash f short tail word complete g bundle v rest value given =>
    rename_i ih
    obtain ⟨q, whole, rfl⟩ := checked_map accepted
    obtain ⟨dash', plain⟩ := isValue_iff.mp value
    simp [dash, dash', unclaimed_flag, unclaimed_value, word, plain, Word.isFlag, Word.waits, Word.strays?,
      bundle, Bundle.waits, Bundle.strays?, withGiven, ih whole]
  | case10 => cases accepted

/-- What an accepted command line leaves over stands in it in that order: the arguments that no flag claims
in front of the first free double dash, in none of which a flag is spelled, and all from there on. Where
letters of flags have others behind them, these are left over in place of the argument; without such an
argument, and so always by the early rules, all that is left over is what was given. The parser gets what is
left over without the dash. -/
theorem left_over (accepted : read release arguments = .ok p) :
    let front := arguments.takeWhile (· != "--")
    let back := arguments.dropWhile (· != "--")
    p.left = unclaimed release false front ++ back ∧
    p.left.Sublist (front.map (fun a => (remnant? release a).getD a) ++ back) ∧
    ((∀ a ∈ front, remnant? release a = none) → p.left.Sublist arguments) ∧
    (∀ a ∈ unclaimed release false front, a ≠ "--" ∧ ¬ Spelled a) ∧
    p.parserArgs = unclaimed release false front ++ back.tail := by
  intro front back
  have left : p.left = unclaimed release false front ++ back := left_eq accepted
  have dashless : "--" ∉ front := fun dash => by
    simpa using List.all_eq_true.mp List.all_takeWhile "--" dash
  have order : p.left.Sublist (front.map (fun a => (remnant? release a).getD a) ++ back) := by
    rw [left]
    exact unclaimed_sublist.append (.refl _)
  refine ⟨left, order, fun whole => ?_, fun a => free_of_mem dashless, ?_⟩
  · have same : front.map (fun a => (remnant? release a).getD a) = front := by
      rw [List.map_congr_left fun a member => by rw [whole a member, Option.getD_none], List.map_id']
    rwa [same, List.takeWhile_append_dropWhile] at order
  · rw [parserArgs, left, List.erase_append_right _ fun free => (free_of_mem dashless free).1 rfl,
      erase_dropWhile]

theorem left_over_mixed :
    ∃ p q, read .early ["-I", "inc", "-o", "out.py", "-vl", "z", "-x", "--", "-o", "--"] = .ok p ∧
      p.left = ["-I", "inc", "-x", "--", "-o", "--"] ∧
      p.left.Sublist ["-I", "inc", "-o", "out.py", "-vl", "z", "-x", "--", "-o", "--"] ∧
      p.parserArgs = ["-I", "inc", "-x", "-o", "--"] ∧
      read .late ["-I", "inc", "-vvDX=1", "--match=--", "--", "-vx"] = .ok q ∧
      q.left = unclaimed .late false ["-I", "inc", "-vvDX=1", "--match=--"] ++ ["--", "-vx"] ∧
      q.left = ["-I", "inc", "-DX=1", "--", "-vx"] ∧
      q.left.Sublist ["-I", "inc", "-DX=1", "--match=--", "--", "-vx"] := by
  have early : read .early ["-I", "inc", "-o", "out.py", "-vl", "z", "-x", "--", "-o", "--"] =
      .ok ⟨[(.output, some "out.py"), (.verbose, none), (.link, some "z")],
        ["-I", "inc", "-x", "--", "-o", "--"]⟩ := rfl
  have late : read .late ["-I", "inc", "-vvDX=1", "--match=--", "--", "-vx"] =
      .ok ⟨[(.verbose, none), (.verbose, none), (.pattern, some "--")],
        ["-I", "inc", "-DX=1", "--", "-vx"]⟩ := rfl
  obtain ⟨_, _, order, _⟩ := left_over early
  obtain ⟨parts, order', _⟩ := left_over late
  exact ⟨_, _, early, rfl, order fun a _ => rfl, rfl, late, parts, rfl, order'⟩

/-- What is left over of letters with a flag's among them was not given like that. -/
theorem remnant_not_given : ∃ p, read .late ["-vx", "a.h"] = .ok p ∧ p.left = ["-x", "a.h"] ∧
    ¬ p.left.Sublist ["-vx", "a.h"] :=
  ⟨⟨[(.verbose, none)], ["-x", "a.h"]⟩, rfl, rfl, by decide⟩

end Parsed

end HeaderBind.CommandLine
