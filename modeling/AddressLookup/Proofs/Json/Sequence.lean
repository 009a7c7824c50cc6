import AddressLookup.Json.Reader
import AddressLookup.Json.Writer
import AddressLookup.Proofs.Json.Integer
import AddressLookup.Proofs.Json.Quoted
import AddressLookup.Text.Split
import Mathlib.Data.List.DropRight

/-! Lists of items between brackets. If a reader of one item makes a known thing of the text of each
item, the reader of the list makes the list of them of the joined texts, and fails as soon as one of
them does. White space may stand before each item and before the closing bracket. -/

namespace AddressLookup.Json

open Text

variable {α β : Type}

/-- What a reader makes of a text, whatever may follow the text. -/
def ReadsAs (item : Step α) (text : List Char) (result : Option α) : Prop :=
  ∀ rest, JsonNumber.Ends rest → item (text ++ rest) = result.map (·, rest)

def Gap (s : List Char) : Prop :=
  ∀ c ∈ s, isSpace c = true

/-- As `ReadsAs`, but the reader may leave white space at the end of the text. -/
def ReadsUpToSpace (item : Step α) (text : List Char) (result : Option α) : Prop :=
  ∀ rest, JsonNumber.Ends rest → ∃ gap, Gap gap ∧ item (text ++ rest) = result.map (·, gap ++ rest)

def IgnoresSpace (item : Step α) : Prop :=
  ∀ s, item (skipSpace s) = item s

def OpensBefore (close : Char) (text : List Char) : Prop :=
  ∃ c rest, skipSpace text = c :: rest ∧ c ≠ close

def Closing (c : Char) : Prop :=
  c = ']' ∨ c = '\x7d'

theorem skipSpace_cons {c : Char} (hc : isSpace c = false) (rest : List Char) :
    skipSpace (c :: rest) = c :: rest :=
  List.dropWhile_cons_of_neg (by simp [hc])

theorem gap_nil : Gap [] :=
  fun _ hc => absurd hc List.not_mem_nil

theorem Gap.append {gap gap' : List Char} (h : Gap gap) (h' : Gap gap') : Gap (gap ++ gap') :=
  fun c hc => (List.mem_append.1 hc).elim (h c) (h' c)

theorem Gap.ends_append {gap rest : List Char} (h : Gap gap) (hrest : JsonNumber.Ends rest) :
    JsonNumber.Ends (gap ++ rest) := by
  rcases gap with _ | ⟨c, gap⟩
  · exact hrest
  · have hc : isSpace c = true := h c List.mem_cons_self
    refine JsonNumber.ends_cons_of_not_continues ?_ _
    simp only [isSpace, Bool.or_eq_true, decide_eq_true_eq] at hc
    rcases hc with ((rfl | rfl) | rfl) | rfl <;> rfl

theorem ReadsAs.upToSpace {item : Step α} {text : List Char} {result : Option α}
    (h : ReadsAs item text result) : ReadsUpToSpace item text result :=
  fun rest hrest => ⟨[], gap_nil, h rest hrest⟩

theorem Gap.skipSpace_append {gap : List Char} (h : Gap gap) (rest : List Char) :
    skipSpace (gap ++ rest) = skipSpace rest := by
  induction gap with
  | nil => rfl
  | cons c gap ih =>
    have hc : isSpace c = true := h c List.mem_cons_self
    rw [List.cons_append, skipSpace, List.dropWhile_cons_of_pos hc]
    exact ih fun d hd => h d (List.mem_cons_of_mem c hd)

theorem skipSpace_skipSpace (s : List Char) : skipSpace (skipSpace s) = skipSpace s :=
  List.dropWhile_idempotent isSpace s

theorem skipSpace_append_of_cons {c : Char} {text t : List Char} (h : skipSpace text = c :: t)
    (rest : List Char) : skipSpace (text ++ rest) = c :: (t ++ rest) := by
  rw [skipSpace, List.dropWhile_append, ← skipSpace, h]
  rfl

theorem OpensBefore.append {close : Char} {gap text : List Char} (hgap : Gap gap)
    (h : OpensBefore close text) : OpensBefore close (gap ++ text) := by
  obtain ⟨c, rest, hskip, hne⟩ := h
  exact ⟨c, rest, by rw [hgap.skipSpace_append, hskip], hne⟩

theorem OpensBefore.append_right {close : Char} {text : List Char} (h : OpensBefore close text)
    (rest : List Char) : OpensBefore close (text ++ rest) := by
  obtain ⟨c, t, hskip, hne⟩ := h
  exact ⟨c, t ++ rest, skipSpace_append_of_cons hskip rest, hne⟩

theorem OpensBefore.ne_nil {close : Char} {text : List Char} (h : OpensBefore close text) : text ≠ [] := by
  rintro rfl
  obtain ⟨c, rest, hskip, -⟩ := h
  cases hskip

theorem opensBefore_cons {c close : Char} (hspace : isSpace c = false) (hne : c ≠ close)
    (rest : List Char) : OpensBefore close (c :: rest) :=
  ⟨c, rest, skipSpace_cons hspace rest, hne⟩

theorem ReadsUpToSpace.gap_append {item : Step α} {gap text : List Char} {result : Option α} (hgap : Gap gap)
    (hitem : IgnoresSpace item) (h : ReadsUpToSpace item text result) :
    ReadsUpToSpace item (gap ++ text) result := by
  intro rest hrest
  obtain ⟨left, hleft, hread⟩ := h rest hrest
  exact ⟨left, hleft, by rw [List.append_assoc, ← hitem, hgap.skipSpace_append, hitem, hread]⟩

theorem Closing.isSpace_eq {c : Char} (h : Closing c) : isSpace c = false := by
  rcases h with rfl | rfl <;> rfl

theorem Closing.ends {c : Char} (h : Closing c) (rest : List Char) :
    JsonNumber.Ends (c :: rest) := by
  refine JsonNumber.ends_cons_of_not_continues ?_ rest
  rcases h with rfl | rfl <;> rfl

theorem Closing.ne_comma {c : Char} (h : Closing c) : ',' ≠ c := by
  rcases h with rfl | rfl <;> decide

theorem ends_comma (rest : List Char) : JsonNumber.Ends (',' :: rest) :=
  JsonNumber.ends_cons_of_not_continues rfl rest

theorem length_le_length_joinWith (parts : List (List Char)) (h : ∀ part ∈ parts, part ≠ []) :
    parts.length ≤ (joinWith [','] parts).length := by
  induction parts with
  | nil => exact Nat.zero_le _
  | cons part parts ih =>
    have hpart : 0 < part.length := List.length_pos_iff.2 (h part List.mem_cons_self)
    have hparts := ih fun p hp => h p (List.mem_cons_of_mem part hp)
    rcases parts with _ | ⟨next, parts⟩
    · rw [joinWith_singleton]
      exact hpart
    · rw [joinWith_cons_cons]
      simp only [List.length_append, List.length_cons, List.length_nil] at hparts ⊢
      omega

section

variable {item : Step α} {write : β → List Char} {result : β → Option α} {close : Char} {gap : List Char}

theorem readItems_join (hclose : Closing close) (hgap : Gap gap) {xs : List β} (hne : xs ≠ [])
    (hread : ∀ x ∈ xs, ReadsUpToSpace item (write x) (result x)) (fuel : Nat) (hfuel : xs.length ≤ fuel)
    (rest : List Char) :
    readItems item close fuel (joinWith [','] (xs.map write) ++ (gap ++ close :: rest)) =
      (xs.mapM result).map (·, rest) := by
  induction xs generalizing fuel with
  | nil => exact absurd rfl hne
  | cons x xs ih =>
    obtain ⟨fuel, rfl⟩ : ∃ n, fuel = n + 1 := ⟨fuel - 1, by simp at hfuel; omega⟩
    have hx := hread x List.mem_cons_self
    rcases xs with _ | ⟨y, ys⟩
    · obtain ⟨left, hleft, hx⟩ := hx _ (hgap.ends_append (hclose.ends rest))
      rw [List.map_singleton, joinWith_singleton, readItems, hx, List.mapM_cons, List.mapM_nil]
      cases result x with
      | none => rfl
      | some a => simp [hleft.skipSpace_append, hgap.skipSpace_append, skipSpace_cons hclose.isSpace_eq]
    · -- A comma follows, so the item ends where it was written to end.
      have htail := ih (by simp) (fun z hz => hread z (List.mem_cons_of_mem x hz))
        fuel (by simp at hfuel ⊢; omega)
      have hjoin : joinWith [','] ((x :: y :: ys).map write) ++ (gap ++ close :: rest) =
          write x ++ ',' :: (joinWith [','] ((y :: ys).map write) ++ (gap ++ close :: rest)) := by
        rw [List.map_cons, List.map_cons, joinWith_cons_cons, ← List.map_cons]
        simp
      obtain ⟨left, hleft, hx⟩ := hx _ (ends_comma _)
      rw [hjoin, readItems, hx, List.mapM_cons]
      cases result x with
      | none => rfl
      | some a =>
        simp only [Option.map_some, hleft.skipSpace_append, skipSpace_cons (c := ',') rfl,
          if_neg hclose.ne_comma, ↓reduceIte, htail]
        cases (y :: ys).mapM result <;> rfl

theorem readItems_skipSpace (hitem : IgnoresSpace item) (close : Char) (fuel : Nat) (s : List Char) :
    readItems item close fuel (skipSpace s) = readItems item close fuel s := by
  cases fuel with
  | zero => rfl
  | succ fuel => rw [readItems, readItems, hitem]

theorem readSequence_join (hclose : Closing close) (hgap : Gap gap) (hitem : IgnoresSpace item)
    {xs : List β} (hopen : ∀ x ∈ xs, OpensBefore close (write x))
    (hread : ∀ x ∈ xs, ReadsUpToSpace item (write x) (result x)) (rest : List Char) :
    readSequence item close (joinWith [','] (xs.map write) ++ (gap ++ close :: rest)) =
      (xs.mapM result).map (·, rest) := by
  rcases xs with _ | ⟨x, xs⟩
  · show readSequence item close (gap ++ close :: rest) = some ([], rest)
    simp [readSequence, hgap.skipSpace_append, skipSpace_cons hclose.isSpace_eq]
  · obtain ⟨c, t, hskip, hne⟩ := hopen x List.mem_cons_self
    obtain ⟨more, hjoin, hlength⟩ : ∃ more, joinWith [','] ((x :: xs).map write) = write x ++ more ∧
        xs.length ≤ more.length := by
      rcases xs with _ | ⟨y, ys⟩
      · exact ⟨[], by rw [List.map_singleton, joinWith_singleton, List.append_nil], Nat.zero_le _⟩
      · refine ⟨[','] ++ joinWith [','] ((y :: ys).map write), ?_, ?_⟩
        · rw [List.map_cons, List.map_cons, joinWith_cons_cons]
        · have hparts := length_le_length_joinWith ((y :: ys).map write) fun part hpart => by
            obtain ⟨z, hz, rfl⟩ := List.mem_map.1 hpart
            exact (hopen z (List.mem_cons_of_mem x hz)).ne_nil
          rw [List.length_map] at hparts
          exact Nat.le_trans hparts (by simp)
    have htext : skipSpace (joinWith [','] ((x :: xs).map write) ++ (gap ++ close :: rest)) =
        c :: (t ++ (more ++ (gap ++ close :: rest))) := by
      rw [hjoin, List.append_assoc, skipSpace_append_of_cons hskip]
    -- Each item takes at least one character, so the length of the text is fuel enough.
    have hitems := readItems_join hclose hgap (List.cons_ne_nil x xs) hread
      ((t ++ (more ++ (gap ++ close :: rest))).length + 1) (by simp; omega) rest
    rw [← readItems_skipSpace hitem, htext] at hitems
    simp only [readSequence, htext, if_neg hne]
    exact hitems

end

def SpellsName (text : List Char) (name : String) : Prop :=
  ∃ before body after, Gap before ∧ Gap after ∧ Quoted.Spells body name.toList ∧
    text = before ++ '"' :: (body ++ '"' :: after)

theorem spellsName_write (name : String) : SpellsName (Quoted.write name) name :=
  ⟨[], Quoted.escapeAll name.toList, [], gap_nil, gap_nil, Quoted.spells_escapeAll _, by simp [Quoted.write]⟩

section

variable {nameText : List Char} {name : String}

theorem SpellsName.readName_append (h : SpellsName nameText name) (rest : List Char) :
    readName (nameText ++ ':' :: rest) = some (name, rest) := by
  obtain ⟨before, body, after, hbefore, hafter, hbody, rfl⟩ := h
  have htext : before ++ '"' :: (body ++ '"' :: after) ++ ':' :: rest =
      before ++ '"' :: (body ++ '"' :: (after ++ ':' :: rest)) := by simp
  rw [htext, readName, hbefore.skipSpace_append, skipSpace_cons (c := '"') rfl]
  simp only [hbody.read_append, hafter.skipSpace_append, skipSpace_cons (c := ':') rfl]

theorem SpellsName.opensBefore (h : SpellsName nameText name) {close : Char} (hclose : Closing close)
    (rest : List Char) : OpensBefore close (nameText ++ rest) := by
  obtain ⟨before, body, after, hbefore, hafter, hbody, rfl⟩ := h
  rw [List.append_assoc, List.cons_append]
  refine (opensBefore_cons rfl ?_ _).append hbefore
  rcases hclose with rfl | rfl <;> decide

theorem SpellsName.readMember {value : Step α} {text : List Char} {result : Option α}
    (hname : SpellsName nameText name) (h : ReadsUpToSpace value text result) :
    ReadsUpToSpace (readMember value) (nameText ++ ':' :: text) (result.map (name, ·)) := by
  intro rest hrest
  obtain ⟨gap, hgap, hvalue⟩ := h rest hrest
  refine ⟨gap, hgap, ?_⟩
  rw [List.append_assoc, List.cons_append, Json.readMember, hname.readName_append]
  simp only [hvalue]
  cases result <;> rfl

end

theorem readName_write (name : String) (rest : List Char) :
    readName (Quoted.write name ++ ':' :: rest) = some (name, rest) :=
  (spellsName_write name).readName_append rest

def memberText (name : String) (text : List Char) : List Char :=
  Quoted.write name ++ ':' :: text

theorem readMember_memberText {value : Step α} {text : List Char} {result : Option α}
    (h : ReadsUpToSpace value text result) (name : String) :
    ReadsUpToSpace (readMember value) (memberText name text) (result.map (name, ·)) :=
  (spellsName_write name).readMember h

theorem memberText_opensBefore {close : Char} (hclose : Closing close) (name : String)
    (text : List Char) : OpensBefore close (memberText name text) :=
  (spellsName_write name).opensBefore hclose _

theorem ignoresSpace_readName : IgnoresSpace readName := by
  intro s
  rw [readName, readName, skipSpace_skipSpace]

theorem ignoresSpace_readMember (value : Step α) : IgnoresSpace (readMember value) := by
  intro s
  rw [readMember, readMember, ignoresSpace_readName]

theorem compactItems_eq_join (items : List Json) :
    compactItems items = joinWith [','] (items.map compactChars) := by
  induction items with
  | nil => rfl
  | cons item items ih =>
    rcases items with _ | ⟨next, items⟩
    · rw [compactItems, List.map_singleton, joinWith_singleton]
    · rw [compactItems, ih]
      · simp only [List.map_cons, joinWith_cons_cons]
        rfl
      · simp

theorem compactMembers_eq_join (members : List (String × Json)) :
    compactMembers members =
      joinWith [','] (members.map fun m => memberText m.1 m.2.compactChars) := by
  induction members with
  | nil => rfl
  | cons member members ih =>
    rcases members with _ | ⟨next, members⟩
    · rw [compactMembers, List.map_singleton, joinWith_singleton, memberText]
    · rw [compactMembers, ih]
      · simp only [List.map_cons, joinWith_cons_cons]
        simp [memberText]
      · simp

theorem mapM_ite {p : β → Prop} [DecidablePred p] {f : β → α} (xs : List β) :
    (xs.mapM fun x => if p x then some (f x) else none) =
      if ∀ x ∈ xs, p x then some (xs.map f) else none := by
  induction xs with
  | nil => simp
  | cons x xs ih =>
    rw [List.mapM_cons, ih]
    by_cases hx : p x
    · by_cases hxs : ∀ y ∈ xs, p y
      · rw [if_pos hx, if_pos hxs, if_pos (List.forall_mem_cons.2 ⟨hx, hxs⟩)]
        rfl
      · rw [if_pos hx, if_neg hxs, if_neg fun h => hxs (List.forall_mem_cons.1 h).2]
        rfl
    · rw [if_neg hx, if_neg fun h => hx (List.forall_mem_cons.1 h).1]
      rfl

end AddressLookup.Json
