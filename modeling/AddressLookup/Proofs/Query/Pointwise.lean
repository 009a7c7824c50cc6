import AddressLookup.Proofs.Query.Exactness
import AddressLookup.Proofs.Query.Meaning

/-! The meaning of a query text, one key at a time: which records it keeps is said condition by condition,
and which fields of them, by the names that are written in the text. -/

namespace AddressLookup

open Text

/-- The order of texts by code points: the one that is less where they first differ, or that ends there. -/
def CodePointLt (s t : String) : Prop :=
  List.Lex (· < ·) (s.toList.map Char.toNat) (t.toList.map Char.toNat)

theorem lex_map_iff {α β : Type} {r : α → α → Prop} {r' : β → β → Prop} {f : α → β}
    (hrel : ∀ a b, r' (f a) (f b) ↔ r a b) (hinj : ∀ a b, f a = f b → a = b) {s t : List α} :
    List.Lex r' (s.map f) (t.map f) ↔ List.Lex r s t := by
  induction s generalizing t with
  | nil => cases t <;> simp
  | cons a s ih =>
    cases t with
    | nil => simp
    | cons b t =>
      rw [List.map_cons, List.map_cons, List.cons_lex_cons_iff, List.cons_lex_cons_iff, hrel, ih]
      exact or_congr_right (and_congr_left fun _ => ⟨hinj a b, congrArg f⟩)

theorem codePointLt_iff {s t : String} : CodePointLt s t ↔ s < t :=
  lex_map_iff (fun _ _ => Iff.rfl) fun _ _ => Char.toNat_inj.1

def Predicate.Accepts : Predicate → String → Prop
  | oneOf values, value => value ∈ values
  | above bound, value => CodePointLt bound value
  | below bound, value => CodePointLt value bound

theorem Predicate.test_iff (p : Predicate) (value : String) : p.test value = true ↔ p.Accepts value := by
  cases p with
  | oneOf values => exact List.contains_iff_mem
  | above bound => exact decide_eq_true_iff.trans codePointLt_iff.symm
  | below bound => exact decide_eq_true_iff.trans codePointLt_iff.symm

def Condition.MetBy (c : Condition) (r : Record) : Prop :=
  ∃ value, r.get? c.field = some value ∧ c.predicate.Accepts value

theorem Condition.holds_iff (c : Condition) (r : Record) : c.holds r = true ↔ c.MetBy r := by
  rw [holds, Option.any_eq_true]
  exact exists_congr fun value => and_congr_right fun _ => c.predicate.test_iff value

namespace Query

theorem admits_iff (q : Query) (r : Record) : q.admits r = true ↔ ∀ c ∈ q.conditions, c.MetBy r := by
  rw [admits, List.all_eq_true]
  exact forall₂_congr fun c _ => c.holds_iff r

/-- The names of a text: they stand between commas behind the word `GET`, up to the keyword or to the end. -/
inductive Written : List Char → List String → Prop where
  | mk {p s rest : List Char} {names : List String} : Blank p → ¬ whereWord <:+: s →
      rest = [] ∨ whereWord <+: rest → Listed names s →
      (∀ n ∈ names, Trimmed n.toList ∧ ',' ∉ n.toList) → Written (p ++ (getWord ++ (s ++ rest))) names

/-- A star shows every field if it is the first name; anywhere else it is a name like the others. -/
def Shown (names : List String) (name : String) : Prop :=
  names.head? = some "*" ∨ name ∈ names

instance (names : List String) (name : String) : Decidable (Shown names name) :=
  inferInstanceAs (Decidable (names.head? = some "*" ∨ name ∈ names))

/-- What is left of a dataset: the records that meet every condition, with the fields that are shown. -/
structure Answer (conditions : List Condition) (names : List String) (d result : Dataset) : Prop where
  keys : ∀ key, result.contains key = true ↔
    ∃ r, d.get? key = some r ∧ ∀ c ∈ conditions, c.MetBy r
  fields : ∀ key r r', d.get? key = some r → result.get? key = some r' →
    ∀ name value, r'.get? name = some value ↔ Shown names name ∧ r.get? name = some value

theorem selects_selectionOf (s : List Char) (name : String) :
    (selectionOf s).selects name = true ↔ Shown (commaParts s) name := by
  rw [selectionOf, Shown]
  split
  · next h => exact iff_of_true rfl (.inl h)
  · next h =>
    rw [or_iff_right h]
    exact List.contains_iff_mem

theorem selection_of_parseBody {s rest : List Char} {q : Query} (hs : ¬ whereWord <:+: s)
    (hrest : rest = [] ∨ whereWord <+: rest) (h : parseBody (s ++ rest) = .ok q) :
    q.selection = selectionOf s := by
  rcases hrest with rfl | ⟨t, rfl⟩
  · rw [List.append_nil, parseBody_of_free hs] at h
    rw [← Except.ok.inj h]
  · rw [parseBody, splitWord_whereWord_append hs] at h
    split at h
    · next hnil => exact absurd hnil (List.cons_ne_nil _ _)
    · next hone => exact absurd (List.cons_eq_cons.1 hone).2 (splitWord_ne_nil whereWord t)
    · next names clauses htwo =>
      obtain ⟨rfl, -⟩ := List.cons_eq_cons.1 htwo
      split at h
      · rw [← Except.ok.inj h]
      · split at h
        · cases h
        · rw [← Except.ok.inj h]
    · cases h

theorem exists_written_of_parse {text : String} {q : Query} (h : parse text = .ok q) :
    ∃ names, Written text.toList names := by
  obtain ⟨p, body, hp, htext, -, -⟩ := exists_body_of_parseChars h
  obtain ⟨s, rest, rfl, hs, hrest⟩ : ∃ s rest, body = s ++ rest ∧ ¬ whereWord <:+: s ∧
      (rest = [] ∨ whereWord <+: rest) := by
    rcases whereWord_cases body with hs | ⟨s, t, rfl, hs, -⟩ | ⟨s, t, u, rfl, hs, -⟩
    · exact ⟨body, [], (List.append_nil body).symm, hs, .inl rfl⟩
    · exact ⟨s, _, rfl, hs, .inr (List.prefix_append _ _)⟩
    · exact ⟨s, _, rfl, hs, .inr (List.prefix_append _ _)⟩
  obtain ⟨hlisted, hparts⟩ := commaParts_eq_iff.1 (rfl : commaParts s = commaParts s)
  exact ⟨commaParts s, htext ▸ .mk hp hs hrest hlisted hparts⟩

theorem trimStart_append_getWord {p : List Char} (hp : Blank p) (body : List Char) :
    trimStart (p ++ (getWord ++ body)) = getWord ++ body := by
  rw [trimStart_append hp]
  exact trimStart_of_head fun c hc => by
    obtain rfl : 'G' = c := by simpa [getWord] using hc
    decide

theorem selects_iff_shown {text : String} {q : Query} (h : parse text = .ok q) {names : List String}
    (hwritten : Written text.toList names) (name : String) :
    q.selection.selects name = true ↔ Shown names name := by
  obtain ⟨p, body, hp, htext, -, hbody⟩ := exists_body_of_parseChars h
  generalize text.toList = chars at hwritten htext
  cases hwritten with
  | @mk p' s rest _ hp' hs hrest hlisted hparts =>
    have hbodies := congrArg trimStart htext
    rw [trimStart_append_getWord hp', trimStart_append_getWord hp] at hbodies
    obtain rfl : s ++ rest = body := List.append_cancel_left hbodies
    rw [selection_of_parseBody hs hrest hbody, selects_selectionOf,
      commaParts_eq_iff.2 ⟨hlisted, hparts⟩]

theorem execute_of_parse {text : String} {q : Query} (h : parse text = .ok q) (d : Dataset) :
    execute text d = .ok (q.apply d) := by
  rw [execute, h]

theorem contains_apply (q : Query) (d : Dataset) (key : String) :
    (q.apply d).contains key = true ↔ ∃ r, d.get? key = some r ∧ q.admits r = true := by
  rw [KeyMap.contains, get?_apply, Option.isSome_map]
  cases d.get? key with
  | none => simp
  | some r => simp [Option.filter_some]

theorem eq_restrict_of_get?_apply {q : Query} {d : Dataset} {key : String} {r r' : Record}
    (hr : d.get? key = some r) (hr' : (q.apply d).get? key = some r') : r' = q.selection.restrict r := by
  rw [get?_apply, hr, Option.filter_some] at hr'
  obtain ⟨_, hadmitted, rfl⟩ := Option.map_eq_some_iff.1 hr'
  rw [Option.some.inj (Option.ite_none_right_eq_some.1 hadmitted).2]

theorem answer_apply {q : Query} {names : List String}
    (hshown : ∀ name, q.selection.selects name = true ↔ Shown names name) (d : Dataset) :
    Answer q.conditions names d (q.apply d) := by
  constructor
  · intro key
    rw [contains_apply]
    exact exists_congr fun r => and_congr_right fun _ => q.admits_iff r
  · intro key r r' hr hr' name value
    rw [eq_restrict_of_get?_apply hr hr', Selection.get?_restrict, ← hshown name]
    exact Option.ite_none_right_eq_some

theorem apply_override (q : Query) {d₁ d₂ : Dataset}
    (hdisjoint : ∀ key, d₁.contains key = true → d₂.contains key = false) :
    q.apply (d₁.override d₂) = (q.apply d₁).override (q.apply d₂) := by
  refine KeyMap.ext_get? fun key => ?_
  simp only [get?_apply, KeyMap.get?_override]
  cases h₁ : d₁.get? key with
  | none => simp
  | some r =>
    have h₂ : d₂.get? key = none := by
      simpa [KeyMap.contains, h₁] using hdisjoint key
    simp [h₂]

/-- A text that is read as a query answers every dataset, key by key as its conditions and its names say.
So on datasets without a common key the answer is the answers on each of them put together. -/
theorem execute_answer {text : String} {q : Query} (h : parse text = .ok q) :
    (∃ names, Written text.toList names) ∧
    (∀ d, ∃ result, execute text d = .ok result ∧
      ∀ names, Written text.toList names → Answer q.conditions names d result) ∧
    ∀ d₁ d₂ : Dataset, (∀ key, d₁.contains key = true → d₂.contains key = false) →
      ∃ r₁ r₂, execute text d₁ = .ok r₁ ∧ execute text d₂ = .ok r₂ ∧
        execute text (d₁.override d₂) = .ok (r₁.override r₂) := by
  refine ⟨exists_written_of_parse h, fun d => ?_, fun d₁ d₂ hdisjoint => ?_⟩
  · exact ⟨q.apply d, execute_of_parse h d, fun names hwritten =>
      answer_apply (selects_iff_shown h hwritten) d⟩
  · refine ⟨q.apply d₁, q.apply d₂, execute_of_parse h d₁, execute_of_parse h d₂, ?_⟩
    rw [execute_of_parse h, apply_override q hdisjoint]

/-- Two conditions on a field that is not shown, and a star that comes too late to show it. -/
theorem execute_answer_late_star :
    let text := "GET b, * WHERE a > 1 AND a < 3"
    let r : Record := ⟨[("*", "s"), ("a", "2"), ("b", "x")], by decide⟩
    let d : Dataset := ⟨[("k", r)], List.pairwise_singleton _ _⟩
    parse text = .ok ⟨.names ["b", "*"], [⟨"a", .above "1"⟩, ⟨"a", .below "3"⟩]⟩ ∧
      Written text.toList ["b", "*"] ∧
      ∃ result, execute text d = .ok result ∧ result.contains "k" = true ∧
        ∀ r', result.get? "k" = some r' →
          r'.get? "*" = some "s" ∧ r'.get? "b" = some "x" ∧ r'.get? "a" ≠ some "2" := by
  intro text r d
  have h : parse text = .ok ⟨.names ["b", "*"], [⟨"a", .above "1"⟩, ⟨"a", .below "3"⟩]⟩ := by decide
  have hlisted : Listed ["b", "*"] "b, * ".toList :=
    .cons (padded_refl "b".toList) (.one (v := "*") ⟨[' '], [' '], blank_space, blank_space, rfl⟩)
  have htext : text.toList =
      [] ++ (getWord ++ ("b, * ".toList ++ "WHERE a > 1 AND a < 3".toList)) := by decide
  have hwritten : Written text.toList ["b", "*"] := by
    rw [htext]
    exact .mk blank_nil (by decide) (.inr (by decide)) hlisted (by decide)
  obtain ⟨-, hanswer, -⟩ := execute_answer h
  obtain ⟨result, hresult, hmeaning⟩ := hanswer d
  have hkeys := (hmeaning _ hwritten).keys "k"
  have hfields := (hmeaning _ hwritten).fields "k" r
  refine ⟨h, hwritten, result, hresult, hkeys.2 ⟨r, by decide, ?_⟩, fun r' hr' => ?_⟩
  · simp only [List.forall_mem_cons, List.not_mem_nil, false_imp_iff, implies_true, and_true]
    exact ⟨(Condition.holds_iff _ _).1 (by decide), (Condition.holds_iff _ _).1 (by decide)⟩
  · have hvalue := hfields r' (by decide) hr'
    rw [hvalue, hvalue, Ne, hvalue]
    decide

end Query

end AddressLookup
