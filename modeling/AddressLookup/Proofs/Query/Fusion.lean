import AddressLookup.Proofs.Query.Meaning

/-! Two queries one after the other. The second sees only the fields that the first left, so a condition
on any other field leaves nothing; if it has no such condition, both together are one query. -/

namespace AddressLookup

namespace Selection

def IsMeet (sel s t : Selection) : Prop :=
  ∀ name, sel.selects name = (s.selects name && t.selects name)

def meet : Selection → Selection → Selection
  | all, t => t
  | names ns, t => names (ns.filter t.selects)

theorem isMeet_meet (s t : Selection) : (s.meet t).IsMeet s t := by
  intro name
  cases s with
  | all => rfl
  | names ns =>
    rw [Bool.eq_iff_iff]
    simp [meet, selects]

theorem isMeet_self (s : Selection) : s.IsMeet s s :=
  fun name => (Bool.and_self (s.selects name)).symm

theorem IsMeet.restrict_restrict {sel s t : Selection} (h : sel.IsMeet s t) (r : Record) :
    t.restrict (s.restrict r) = sel.restrict r := by
  refine KeyMap.ext_get? fun name => ?_
  rw [get?_restrict, get?_restrict, get?_restrict, h name]
  cases s.selects name <;> cases t.selects name <;> rfl

end Selection

namespace Query

def ReadsHidden (q : Query) (sel : Selection) : Prop :=
  ∃ c ∈ q.conditions, sel.selects c.field = false

instance (q : Query) (sel : Selection) : Decidable (q.ReadsHidden sel) :=
  inferInstanceAs (Decidable (∃ c ∈ q.conditions, sel.selects c.field = false))

theorem admits_restrict_of_readsHidden {q : Query} {sel : Selection} (h : q.ReadsHidden sel)
    (r : Record) : q.admits (sel.restrict r) = false := by
  obtain ⟨c, hc, hhidden⟩ := h
  refine List.all_eq_false.2 ⟨c, hc, ?_⟩
  rw [c.holds_restrict, hhidden]
  exact Bool.false_ne_true

theorem admits_restrict {q : Query} {sel : Selection} (h : ¬ q.ReadsHidden sel) (r : Record) :
    q.admits (sel.restrict r) = q.admits r := by
  have hholds (c : Condition) (hc : c ∈ q.conditions) : c.holds (sel.restrict r) = c.holds r := by
    have hshown : sel.selects c.field = true :=
      eq_true_of_ne_false fun hhidden => h ⟨c, hc, hhidden⟩
    rw [c.holds_restrict, hshown, Bool.true_and]
  rw [Bool.eq_iff_iff, admits, admits, List.all_eq_true, List.all_eq_true]
  constructor
  · intro hall c hc
    rw [← hholds c hc]
    exact hall c hc
  · intro hall c hc
    rw [hholds c hc]
    exact hall c hc

theorem admits_append (sel : Selection) (cs ds : List Condition) (r : Record) :
    admits ⟨sel, cs ++ ds⟩ r = (admits ⟨sel, cs⟩ r && admits ⟨sel, ds⟩ r) :=
  List.all_append

theorem apply_apply_of_readsHidden {q₁ q₂ : Query} (h : q₂.ReadsHidden q₁.selection) (d : Dataset) :
    q₂.apply (q₁.apply d) = ∅ := by
  refine KeyMap.ext_get? fun key => ?_
  rw [get?_apply, get?_apply, KeyMap.get?_empty]
  rcases (d.get? key).filter q₁.admits with _ | r
  · rfl
  · rw [Option.map_some, Option.filter_some, admits_restrict_of_readsHidden h]
    rfl

theorem apply_apply_of_not_readsHidden {q₁ q₂ : Query} (h : ¬ q₂.ReadsHidden q₁.selection)
    {sel : Selection} (hsel : sel.IsMeet q₁.selection q₂.selection) (d : Dataset) :
    q₂.apply (q₁.apply d) = apply ⟨sel, q₁.conditions ++ q₂.conditions⟩ d := by
  refine KeyMap.ext_get? fun key => ?_
  rw [get?_apply, get?_apply, get?_apply]
  rcases d.get? key with _ | r
  · rfl
  · rw [Option.filter_some, Option.filter_some, admits_append]
    have hfirst : admits ⟨sel, q₁.conditions⟩ r = q₁.admits r := rfl
    have hsecond : admits ⟨sel, q₂.conditions⟩ r = q₂.admits r := rfl
    rw [hfirst, hsecond]
    cases q₁.admits r with
    | false => rfl
    | true =>
      rw [if_pos rfl, Option.map_some, Option.filter_some, admits_restrict h, Bool.true_and]
      cases q₂.admits r with
      | false => rfl
      | true => exact congrArg some (hsel.restrict_restrict r)

theorem apply_repeated (q : Query) (d : Dataset) :
    apply ⟨q.selection, q.conditions ++ q.conditions⟩ d = q.apply d := by
  refine KeyMap.ext_get? fun key => ?_
  have hadmits : admits ⟨q.selection, q.conditions ++ q.conditions⟩ = q.admits := by
    funext r
    rw [admits_append]
    exact Bool.and_self (q.admits r)
  rw [get?_apply, get?_apply, hadmits]

/-- One query after another is the one query that shows what both show and has the conditions of both,
unless the second has a condition on a field that the first does not show; then nothing is left. -/
theorem apply_apply (q₁ q₂ : Query) (d : Dataset) :
    (∃ sel : Selection, sel.IsMeet q₁.selection q₂.selection) ∧
    (∀ sel : Selection, sel.IsMeet q₁.selection q₂.selection →
      q₂.apply (q₁.apply d) =
        if q₂.ReadsHidden q₁.selection then ∅
        else apply ⟨sel, q₁.conditions ++ q₂.conditions⟩ d) ∧
    q₁.apply (q₁.apply d) = if q₁.ReadsHidden q₁.selection then ∅ else q₁.apply d := by
  refine ⟨⟨_, Selection.isMeet_meet _ _⟩, fun sel hsel => ?_, ?_⟩
  · split
    · next h => exact apply_apply_of_readsHidden h d
    · next h => exact apply_apply_of_not_readsHidden h hsel d
  · split
    · next h => exact apply_apply_of_readsHidden h d
    · next h =>
      rw [apply_apply_of_not_readsHidden h (Selection.isMeet_self _), apply_repeated]

/-- The order of two queries matters: a condition on the country finds nothing once only the city is
shown, and the city is still there once the country is as wanted. -/
theorem apply_apply_city_country :
    let city : Query := ⟨.names ["city"], []⟩
    let french : Query := ⟨.all, [⟨"country", .oneOf ["FR"]⟩]⟩
    let lyon : Record := ⟨[("city", "Lyon"), ("country", "FR")], by decide⟩
    let d : Dataset := ⟨[("10.0.0.1", lyon)], List.pairwise_singleton _ _⟩
    city.selection.IsMeet city.selection french.selection ∧
      city.selection.IsMeet french.selection city.selection ∧ french.apply (city.apply d) = ∅ ∧
      (city.apply (french.apply d)).entries.map (fun e => (e.1, e.2.entries)) =
        [("10.0.0.1", [("city", "Lyon")])] := by
  intro city french lyon d
  have hmeet : city.selection.IsMeet city.selection french.selection :=
    fun name => (Bool.and_true _).symm
  have hmeet' : city.selection.IsMeet french.selection city.selection :=
    fun name => (Bool.true_and _).symm
  refine ⟨hmeet, hmeet', ?_, ?_⟩
  · rw [(apply_apply city french d).2.1 _ hmeet, if_pos (by decide)]
  · rw [(apply_apply french city d).2.1 _ hmeet', if_neg (by decide)]
    decide

end Query

end AddressLookup
