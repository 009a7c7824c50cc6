/-!
Cutting a text at every occurrence of a symbol or of a word. Occurrences of a word are taken from the
left and do not overlap; joining the parts with the separator gives the text back.
-/

namespace AddressLookup.Text

variable {α : Type}

def extendFirst (c : α) : List (List α) → List (List α)
  | [] => [[c]]
  | part :: parts => (c :: part) :: parts

def splitOn [DecidableEq α] (separator : α) : List α → List (List α)
  | [] => [[]]
  | c :: rest =>
    if c = separator then [] :: splitOn separator rest
    else extendFirst c (splitOn separator rest)

/-- The parts between the occurrences of `word`, of which `skip` symbols are still to be passed. -/
def splitWordAfter [DecidableEq α] (word : List α) : Nat → List α → List (List α)
  | _, [] => [[]]
  | skip + 1, _ :: rest => splitWordAfter word skip rest
  | 0, c :: rest =>
    if word.isPrefixOf (c :: rest) then [] :: splitWordAfter word (word.length - 1) rest
    else extendFirst c (splitWordAfter word 0 rest)

def splitWord [DecidableEq α] (word : List α) (s : List α) : List (List α) :=
  splitWordAfter word 0 s

def joinWith (separator : List α) (parts : List (List α)) : List α :=
  separator.intercalate parts

theorem splitOn_ne_nil [DecidableEq α] (separator : α) (s : List α) : splitOn separator s ≠ [] := by
  cases s with
  | nil => simp [splitOn]
  | cons c rest =>
    simp only [splitOn]
    split
    · simp
    · cases splitOn separator rest <;> simp [extendFirst]

theorem joinWith_extendFirst (separator : List α) (c : α) {parts : List (List α)}
    (h : parts ≠ []) :
    joinWith separator (extendFirst c parts) = c :: joinWith separator parts := by
  rcases parts with _ | ⟨part, _ | ⟨next, more⟩⟩
  · exact absurd rfl h
  · simp [joinWith, extendFirst, List.intercalate]
  · simp [joinWith, extendFirst, List.intercalate]

theorem joinWith_singleton (separator part : List α) : joinWith separator [part] = part := by
  simp [joinWith, List.intercalate]

theorem joinWith_cons_cons (separator part next : List α) (parts : List (List α)) :
    joinWith separator (part :: next :: parts) =
      part ++ (separator ++ joinWith separator (next :: parts)) := by
  simp [joinWith, List.intercalate]

theorem joinWith_append (separator : List α) {parts more : List (List α)} (hparts : parts ≠ [])
    (hmore : more ≠ []) :
    joinWith separator (parts ++ more) =
      joinWith separator parts ++ (separator ++ joinWith separator more) := by
  obtain ⟨next, more, rfl⟩ := List.exists_cons_of_ne_nil hmore
  induction parts with
  | nil => exact absurd rfl hparts
  | cons part parts ih =>
    rcases parts with _ | ⟨second, parts⟩
    · rw [List.singleton_append, joinWith_cons_cons, joinWith_singleton]
    · rw [List.cons_append, List.cons_append, joinWith_cons_cons, joinWith_cons_cons,
        ← List.cons_append, ih (List.cons_ne_nil second parts)]
      simp only [List.append_assoc]

theorem infix_joinWith (separator : List α) {part : List α} {parts : List (List α)}
    (h : part ∈ parts) : part <:+: joinWith separator parts := by
  induction parts with
  | nil => exact absurd h List.not_mem_nil
  | cons first parts ih =>
    rcases parts with _ | ⟨next, more⟩
    · exact ⟨[], [], by simp [joinWith_singleton, List.mem_singleton.1 h]⟩
    · rw [joinWith_cons_cons]
      rcases List.mem_cons.1 h with rfl | h
      · exact (List.prefix_append _ _).isInfix
      · exact (ih h).trans ((List.suffix_append separator _).trans (List.suffix_append first _)).isInfix

theorem joinWith_nil_cons (separator : List α) {parts : List (List α)} (h : parts ≠ []) :
    joinWith separator ([] :: parts) = separator ++ joinWith separator parts := by
  rcases parts with _ | ⟨part, more⟩
  · exact absurd rfl h
  · simp [joinWith, List.intercalate]

theorem joinWith_splitOn [DecidableEq α] (separator : α) (s : List α) :
    joinWith [separator] (splitOn separator s) = s := by
  induction s with
  | nil => rfl
  | cons c rest ih =>
    simp only [splitOn]
    split
    · next h =>
      rw [joinWith_nil_cons _ (splitOn_ne_nil separator rest), ih, h]
      rfl
    · rw [joinWith_extendFirst _ _ (splitOn_ne_nil separator rest), ih]

end AddressLookup.Text
