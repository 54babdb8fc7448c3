/-! Looking for one text inside another, over characters. -/
namespace HeaderBind.Text

/-- Whether `needle` stands somewhere in the text; the empty text stands everywhere. -/
def occursIn (needle : List Char) : List Char → Bool
  | [] => needle.isEmpty
  | c :: rest => needle.isPrefixOf (c :: rest) || occursIn needle rest

theorem occursIn_iff {needle s : List Char} : occursIn needle s = true ↔ needle <:+: s := by
  induction s with
  | nil => simp [occursIn]
  | cons c rest ih =>
    rw [occursIn, Bool.or_eq_true, ih, List.isPrefixOf_iff_prefix, List.infix_cons_iff]

/-- The text after `lead` when it starts with `lead`. -/
def after? (lead : List Char) (s : List Char) : Option (List Char) :=
  if lead.isPrefixOf s then some (s.drop lead.length) else none

theorem after?_eq_some_iff {lead s rest : List Char} : after? lead s = some rest ↔ s = lead ++ rest := by
  unfold after?
  constructor
  · intro found
    split at found
    · rename_i leads
      obtain ⟨tail, rfl⟩ := List.isPrefixOf_iff_prefix.mp leads
      rw [List.drop_left, Option.some.injEq] at found
      rw [found]
    · cases found
  · rintro rfl
    rw [if_pos (List.isPrefixOf_iff_prefix.mpr (List.prefix_append lead rest)), List.drop_left]

theorem after?_eq_none_iff {lead s : List Char} : after? lead s = none ↔ ¬ lead <+: s := by
  rw [Option.eq_none_iff_forall_ne_some]
  constructor
  · rintro absent ⟨rest, rfl⟩
    exact absent rest (after?_eq_some_iff.mpr rfl)
  · intro absent rest found
    exact absent ⟨rest, (after?_eq_some_iff.mp found).symm⟩

/-- Whether the string `hay` holds the string `needle`. -/
def holds (hay needle : String) : Bool :=
  occursIn needle.toList hay.toList

/-- Whether the string starts with `lead`. -/
def startsWith (s lead : String) : Bool :=
  lead.toList.isPrefixOf s.toList

end HeaderBind.Text
