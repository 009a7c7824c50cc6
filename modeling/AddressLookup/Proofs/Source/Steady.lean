import AddressLookup.Proofs.Source.Merge
import AddressLookup.Source.Table

/-! Sources whose answers depend on the key alone, however much they change otherwise. What a lookup comes to is
then settled by the set of its keys: it finds the records that the answers make together if every answer to
every key is one, and else it fails. Neither the order of the keys nor their number makes a difference. -/

namespace AddressLookup

namespace FieldSource

variable {σ ω : Type} [FieldSource σ ω]

inductive LeadsTo (sources : List σ) (w : ω) : List σ → ω → Prop
  | refl : LeadsTo sources w sources w
  | step {before : List σ} {s : σ} {after : List σ} {w' : ω} (h : LeadsTo sources w (before ++ s :: after) w')
      (key : String) :
      LeadsTo sources w (before ++ (fetch s key w').source :: after) (fetch s key w').world

/-- Whatever else is fetched meanwhile, each source has one answer to every key. -/
def Steady (answers : List (String → Except Error Record)) (sources : List σ) (w : ω) : Prop :=
  ∀ sources' w', LeadsTo sources w sources' w' →
    List.Forall₂ (fun answer s => ∀ key, (fetch s key w').outcome = answer key) answers sources'

def merged (known : Record) (answers : List (String → Except Error Record)) (key : String) :
    Except Error Record :=
  answers.foldlM (fun r answer => (answer key).map r.override) known

/-- The dataset has a record of each of the keys and of no other, and it is what the answers tell of the key. -/
def Tells (answers : List (String → Except Error Record)) (keys : List String) (d : Dataset) : Prop :=
  (∀ key ∈ keys, ∃ r, merged ∅ answers key = .ok r ∧ d.get? key = some r) ∧
    ∀ key, key ∉ keys → d.get? key = none

section

variable {answers : List (String → Except Error Record)} {sources sources' before after : List σ} {s : σ}
  {w w' : ω} {d d' : Dataset} {keys keys' : List String}

theorem LeadsTo.trans {sources'' : List σ} {w'' : ω} (h : LeadsTo sources w sources' w')
    (h' : LeadsTo sources' w' sources'' w'') : LeadsTo sources w sources'' w'' := by
  induction h' with
  | refl => exact h
  | step _ key ih => exact .step ih key

theorem Steady.of_leadsTo (h : Steady answers sources w) (hleads : LeadsTo sources w sources' w') :
    Steady answers sources' w' :=
  fun _ _ hmore => h _ _ (hleads.trans hmore)

theorem Steady.fetched (h : Steady answers (before ++ s :: after) w) (key : String) :
    Steady answers (before ++ (fetch s key w).source :: after) (fetch s key w).world :=
  h.of_leadsTo (.step .refl key)

theorem Steady.exists_answer (h : Steady answers (before ++ s :: after) w) :
    ∃ answer rest, answers.drop before.length = answer :: rest ∧
      ∀ key, (fetch s key w).outcome = answer key := by
  have hpaired := List.forall₂_drop_append answers before (s :: after) (h _ _ .refl)
  obtain ⟨answer, rest, hanswer, -, hdrop⟩ := List.forall₂_cons_right_iff.1 hpaired
  exact ⟨answer, rest, hdrop, hanswer⟩

theorem outcome_fetchInto (h : Steady answers (before ++ sources) w) (r : Record) (key : String) :
    (fetchInto r sources key w).outcome = merged r (answers.drop before.length) key := by
  induction sources generalizing before r w with
  | nil =>
    have hpaired := List.forall₂_drop_append answers before [] (h _ _ .refl)
    rw [List.forall₂_nil_right_iff.1 hpaired]
    rfl
  | cons s rest ih =>
    obtain ⟨answer, others, hdrop, hanswer⟩ := h.exists_answer
    have hfetched := h.fetched key
    rw [List.append_cons] at hfetched
    have hothers : answers.drop (before ++ [(fetch s key w).source]).length = others := by
      rw [List.length_append, ← List.drop_drop, hdrop]
      rfl
    rw [fetchInto, merged, hdrop, List.foldlM_cons, hanswer]
    cases answer key with
    | error e => rfl
    | ok fields =>
      show (fetchInto (r.override fields) rest key _).outcome = _
      rw [ih hfetched, hothers]
      rfl

theorem outcome_fetchAll (h : Steady answers sources w) (key : String) :
    (fetchAll sources key w).outcome = merged ∅ answers key :=
  outcome_fetchInto (show Steady answers ([] ++ sources) w from h) ∅ key

theorem outcome_lookupInto (h : Steady answers sources w) (d : Dataset) (keys : List String) :
    (∃ e, (lookupInto d sources keys w).outcome = .error e ∧ ∃ key ∈ keys, merged ∅ answers key = .error e) ∨
      ∃ found, (lookupInto d sources keys w).outcome = .ok found ∧ ∀ key,
        if d.get? key = none ∧ key ∈ keys then ∃ r, merged ∅ answers key = .ok r ∧ found.get? key = some r
        else found.get? key = d.get? key := by
  induction keys generalizing d sources w with
  | nil => exact .inr ⟨d, rfl, fun key => by simp⟩
  | cons key keys ih =>
    by_cases hknown : d.contains key = true
    · have hmem : ∀ other, d.get? other = none ∧ other ∈ key :: keys ↔ d.get? other = none ∧ other ∈ keys := by
        refine fun other => and_congr_right fun hnone => ?_
        have hne : other ≠ key := by
          rintro rfl
          simp [KeyMap.contains, hnone] at hknown
        rw [List.mem_cons, or_iff_right hne]
      simp only [lookupInto, if_pos hknown, hmem]
      obtain ⟨e, hout, other, hother, he⟩ | hfound := ih h d
      · exact .inl ⟨e, hout, other, List.mem_cons_of_mem key hother, he⟩
      · exact .inr hfound
    · have hnone : d.get? key = none := by simpa [KeyMap.contains] using hknown
      have hfetched := outcome_fetchAll h key
      rw [lookupInto, if_neg hknown]
      rcases htold : merged ∅ answers key with e | r
      · rw [htold] at hfetched
        simp only [hfetched]
        exact .inl ⟨e, rfl, key, List.mem_cons_self, htold⟩
      rw [htold] at hfetched
      simp only [hfetched]
      have hsteady : Steady answers (fetchAll sources key w).source (fetchAll sources key w).world :=
        fetchInto_preserves (fun h => h.fetched) (show Steady answers ([] ++ sources) w from h) ∅ key
      obtain ⟨e, hout, other, hother, he⟩ | ⟨found, hout, hfound⟩ := ih hsteady (d.insert key r)
      · exact .inl ⟨e, hout, other, List.mem_cons_of_mem key hother, he⟩
      refine .inr ⟨found, hout, fun other => ?_⟩
      have hother := hfound other
      rw [KeyMap.get?_insert] at hother
      by_cases heq : other = key
      · subst heq
        simp only [↓reduceIte, reduceCtorEq, false_and] at hother
        rw [if_pos ⟨hnone, List.mem_cons_self⟩]
        exact ⟨r, htold, hother⟩
      · rw [if_neg heq] at hother
        simpa only [List.mem_cons, or_iff_right heq] using hother

theorem Tells.eq (h : Tells answers keys d) (h' : Tells answers keys d') : d = d' := by
  refine KeyMap.ext_get? fun key => ?_
  by_cases hkey : key ∈ keys
  · obtain ⟨r, hr, hd⟩ := h.1 key hkey
    obtain ⟨r', hr', hd'⟩ := h'.1 key hkey
    rw [hd, hd', Except.ok.inj (hr.symm.trans hr')]
  · rw [h.2 key hkey, h'.2 key hkey]

theorem tells_congr (hkeys : ∀ key, key ∈ keys ↔ key ∈ keys') :
    Tells answers keys d ↔ Tells answers keys' d := by
  simp only [Tells, hkeys]

theorem lookup_eq_ok_iff (h : Steady answers sources w) (keys : List String) (d : Dataset) :
    (lookup sources keys w).outcome = .ok d ↔ Tells answers keys d := by
  rw [lookup]
  obtain ⟨e, hout, key, hkey, he⟩ | ⟨found, hout, hfound⟩ := outcome_lookupInto h ∅ keys
  · rw [hout]
    refine iff_of_false (fun h => by cases h) fun htells => ?_
    obtain ⟨r, hr, -⟩ := htells.1 key hkey
    rw [he] at hr
    cases hr
  · have htells : Tells answers keys found := by
      refine ⟨fun key hkey => ?_, fun key hkey => ?_⟩
      · simpa [hkey] using hfound key
      · simpa [hkey] using hfound key
    rw [hout, Except.ok.injEq]
    exact ⟨fun heq => heq ▸ htells, htells.eq⟩

end

/-- Two lookups of the same set of keys, in whatever order and however often each key is listed, find equal
datasets or both fail, as long as the sources have the same answers. -/
theorem lookup_of_same_keys {answers : List (String → Except Error Record)} {sources sources' : List σ} {w w' : ω}
    (h : Steady answers sources w) (h' : Steady answers sources' w') {keys keys' : List String}
    (hkeys : ∀ key, key ∈ keys ↔ key ∈ keys') :
    (∃ d, (lookup sources keys w).outcome = .ok d ∧ (lookup sources' keys' w').outcome = .ok d) ∨
      ∃ e e', (lookup sources keys w).outcome = .error e ∧ (lookup sources' keys' w').outcome = .error e' := by
  have hsame : ∀ d, (lookup sources keys w).outcome = .ok d ↔ (lookup sources' keys' w').outcome = .ok d := by
    intro d
    rw [lookup_eq_ok_iff h, lookup_eq_ok_iff h', tells_congr hkeys]
  rcases hfound : (lookup sources keys w).outcome with e | d
  · rcases hfound' : (lookup sources' keys' w').outcome with e' | d
    · exact .inr ⟨e, e', rfl, rfl⟩
    · rw [(hsame d).2 hfound'] at hfound
      cases hfound
  · exact .inl ⟨d, rfl, (hsame d).1 hfound⟩

theorem steady_tables (sources : List TableSource) : Steady (sources.map TableSource.answer) sources () := by
  -- A table is not changed by looking into it.
  have hsame : ∀ sources' w', LeadsTo sources () sources' w' → sources' = sources := by
    intro sources' w' hleads
    induction hleads with
    | refl => rfl
    | step _ key ih => exact ih
  intro sources' w' hleads
  rw [hsame sources' w' hleads, List.forall₂_map_left_iff, List.forall₂_same]
  exact fun s _ key => rfl

/-- Two keys, each of which is refused by another source: which refusal is met first is a matter of order,
that the lookup fails is not. -/
theorem lookup_of_same_keys_refused :
    let geo : TableSource := ⟨"geo", ∅, KeyMap.ofList [("2.2.2.2", "busy")], none⟩
    let rdap : TableSource := ⟨"rdap", ∅, KeyMap.ofList [("1.1.1.1", "unknown")], none⟩
    let sources := [geo, rdap]
    let keys := ["1.1.1.1", "2.2.2.2"]
    let keys' := ["2.2.2.2", "1.1.1.1", "2.2.2.2"]
    let found := (lookup sources keys ()).outcome
    let found' := (lookup sources keys' ()).outcome
    Steady (sources.map TableSource.answer) sources () ∧ (∀ key, key ∈ keys ↔ key ∈ keys') ∧
      found = .error (.lookup "rdap" "1.1.1.1" "unknown") ∧ found' = .error (.lookup "geo" "2.2.2.2" "busy") ∧
      ((∃ d, found = .ok d ∧ found' = .ok d) ∨ ∃ e e', found = .error e ∧ found' = .error e') := by
  intro geo rdap sources keys keys' found found'
  have hsteady := steady_tables sources
  have hkeys : ∀ key, key ∈ keys ↔ key ∈ keys' := by
    intro key
    simp only [keys, keys', List.mem_cons, List.not_mem_nil, or_false]
    tauto
  exact ⟨hsteady, hkeys, by decide +kernel, by decide +kernel, lookup_of_same_keys hsteady hsteady hkeys⟩

end FieldSource

end AddressLookup
