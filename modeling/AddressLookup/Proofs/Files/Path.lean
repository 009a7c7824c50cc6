import AddressLookup.Files.Path
import AddressLookup.Proofs.Text.Cutting

/-! How paths are written. A path that ends in a name is something open, which is nothing or ends in a slash,
then the name, then slashes and single dots that lead nowhere. Its temporary path has the same beginning. -/

namespace AddressLookup

namespace Path

structure Plain (name : Name) : Prop where
  slash_not_mem : slash ∉ name
  stepOf? : stepOf? name = some (.into name)

instance (name : Name) : Decidable (Plain name) :=
  decidable_of_iff (slash ∉ name ∧ Path.stepOf? name = some (.into name))
    ⟨fun h => ⟨h.1, h.2⟩, fun h => ⟨h.slash_not_mem, h.stepOf?⟩⟩

/-- Bytes after which a name can be written. -/
def Open (before : List UInt8) : Prop :=
  before = [] ∨ ∃ more, before = more ++ [slash]

theorem splitOn_append_separator {α : Type} [DecidableEq α] (separator : α) (s t : List α) :
    Text.splitOn separator (s ++ separator :: t) = Text.splitOn separator s ++ Text.splitOn separator t := by
  induction s with
  | nil => simp [Text.splitOn]
  | cons c s ih =>
    rw [List.cons_append, Text.splitOn, Text.splitOn, ih]
    split
    · rfl
    · obtain ⟨part, parts, hparts⟩ := List.exists_cons_of_ne_nil (Text.splitOn_ne_nil separator s)
      rw [hparts]
      rfl

section

variable {segment name before last : List UInt8}

theorem stepOf?_eq_none_iff : stepOf? segment = none ↔ segment = [] ∨ segment = [dot] := by
  unfold stepOf?
  split
  · next h => simpa using h
  · next h =>
    have hsome : (if segment = [dot, dot] then some Step.up else some (.into segment)) ≠ none := by
      split <;> simp
    simpa [hsome] using h

theorem eq_of_stepOf? (h : stepOf? segment = some (.into name)) : segment = name := by
  unfold stepOf? at h
  split at h
  · cases h
  split at h
  · cases h
  · exact Step.into.inj (Option.some.inj h)

theorem Plain.ne_nil (h : Plain name) : name ≠ [] := by
  rintro rfl
  cases h.stepOf?

theorem Plain.ne_dot (h : Plain name) : name ≠ [dot] := by
  rintro rfl
  cases h.stepOf?

theorem Plain.append_temporarySuffix (h : Plain name) : Plain (name ++ temporarySuffix) := by
  have hlong : ∀ few : List UInt8, few.length < 4 → name ++ temporarySuffix ≠ few := by
    rintro few hfew rfl
    rw [List.length_append, show temporarySuffix.length = 4 from rfl] at hfew
    omega
  refine ⟨?_, ?_⟩
  · rw [List.mem_append, not_or]
    exact ⟨h.slash_not_mem, by decide⟩
  · rw [Path.stepOf?, if_neg, if_neg (hlong [dot, dot] (by decide))]
    simp [hlong [] (by decide), hlong [dot] (by decide)]

theorem exists_open (s : List UInt8) : ∃ before last, s = before ++ last ∧ Open before ∧ slash ∉ last := by
  by_cases hslash : slash ∈ s
  · obtain ⟨last, before, hreverse, hlast⟩ := List.eq_append_cons_of_mem (List.mem_reverse.2 hslash)
    refine ⟨before.reverse ++ [slash], last.reverse, ?_, .inr ⟨_, rfl⟩, by simpa using hlast⟩
    rw [← List.reverse_reverse s, hreverse]
    simp
  · exact ⟨[], s, rfl, .inl rfl, hslash⟩

theorem steps_append_segment (s : List UInt8) (h : stepOf? segment = none) :
    (Path.mk (s ++ slash :: segment)).steps = (Path.mk s).steps := by
  have hfree : slash ∉ segment := by
    rcases stepOf?_eq_none_iff.1 h with rfl | rfl <;> decide
  rw [steps, segments, splitOn_append_separator, Text.splitOn_of_not_mem hfree, List.filterMap_append,
    List.filterMap_cons_none h, List.filterMap_nil, List.append_nil]
  rfl

theorem Open.steps_append (h : Open before) (hlast : slash ∉ last) :
    (Path.mk (before ++ last)).steps = (Path.mk before).steps ++ (stepOf? last).toList := by
  have hsingle : [last].filterMap stepOf? = (stepOf? last).toList := by
    cases hstep : stepOf? last <;> simp [hstep]
  rcases h with rfl | ⟨more, rfl⟩
  · rw [List.nil_append, steps, segments, Text.splitOn_of_not_mem hlast, hsingle]
    rfl
  · rw [steps_append_segment more (show stepOf? [] = none from rfl), List.append_assoc, List.singleton_append, steps,
      segments, splitOn_append_separator, Text.splitOn_of_not_mem hlast, List.filterMap_append, hsingle]
    rfl

end

section

variable (r : List UInt8)

theorem steps_dropEnding : (Path.mk (dropEnding r).reverse).steps = (Path.mk r.reverse).steps := by
  fun_induction dropEnding r with
  | case1 => rfl
  | case2 rest ih => rw [ih, List.reverse_cons, steps_append_segment _ rfl]
  | case3 b rest hb hdot ih =>
    -- The dot is a segment of its own, and the slash before it ends in an empty one.
    simp only [Bool.and_eq_true, decide_eq_true_eq, beq_iff_eq, List.head?_eq_some_iff] at hdot
    obtain ⟨rfl, before, rfl⟩ := hdot
    have hsingle : stepOf? [dot] = none := rfl
    have hempty : stepOf? [] = none := rfl
    simp only [List.reverse_cons, List.append_assoc, List.singleton_append] at ih ⊢
    rw [ih, steps_append_segment _ hsingle, steps_append_segment _ hempty]
  | case4 => rfl

theorem exists_ending : ∃ ending, r.reverse = (dropEnding r).reverse ++ ending ∧
    (ending.head? = some slash ∨ ending = [] ∧ r.head? ≠ some slash) := by
  fun_induction dropEnding r with
  | case1 => exact ⟨[], rfl, .inr ⟨rfl, nofun⟩⟩
  | case2 rest ih =>
    obtain ⟨ending, hending, hhead⟩ := ih
    refine ⟨ending ++ [slash], by rw [List.reverse_cons, hending, List.append_assoc], .inl ?_⟩
    rcases hhead with hhead | ⟨rfl, -⟩
    · rw [List.head?_append, hhead, Option.some_or]
    · rfl
  | case3 b rest hb hdot ih =>
    simp only [Bool.and_eq_true, decide_eq_true_eq, beq_iff_eq] at hdot
    obtain ⟨ending, hending, hhead⟩ := ih
    refine ⟨ending ++ [b], by rw [List.reverse_cons, hending, List.append_assoc], .inl ?_⟩
    rcases hhead with hhead | ⟨-, hnone⟩
    · rw [List.head?_append, hhead, Option.some_or]
    · exact absurd hdot.2 hnone
  | case4 b rest hb hdot => exact ⟨[], (List.append_nil _).symm, .inr ⟨rfl, by simpa using hb⟩⟩

theorem not_prefix_dropEnding {segment : List UInt8} (h : stepOf? segment = none) :
    ¬ segment ++ [slash] <+: dropEnding r := by
  fun_induction dropEnding r with
  | case1 => simp
  | case2 rest ih => exact ih
  | case3 b rest hb hdot ih => exact ih
  | case4 b rest hb hdot =>
    intro hprefix
    rcases stepOf?_eq_none_iff.1 h with rfl | rfl
    · exact hb (List.cons_prefix_cons.1 hprefix).1.symm
    · obtain ⟨rfl, hrest⟩ := List.cons_prefix_cons.1 hprefix
      obtain ⟨before, rfl⟩ := hrest
      exact hdot (by simp)

theorem dropEnding_of_kept {b : UInt8} (hslash : b ≠ slash) (hdot : b = dot → r.head? ≠ some slash) :
    dropEnding (b :: r) = b :: r := by
  rw [dropEnding, if_neg hslash, if_neg]
  simpa using hdot

end

/-- A path that is something open, then the name, then an ending that leads nowhere. -/
structure EndsIn (p : Path) (before : List UInt8) (name : Name) : Prop where
  isOpen : Open before
  plain : Plain name
  kept : (dropEnding p.bytes.reverse).reverse = before ++ name

section

variable {p : Path} {before : List UInt8} {name : Name}

theorem getLast?_steps_of_lastName? (h : p.lastName? = some name) :
    p.steps.getLast? = some (.into name) := by
  unfold lastName? at h
  split at h
  · next found hfound => rw [hfound, Option.some.inj h]
  · cases h

theorem exists_endsIn (h : p.lastName? = some name) : ∃ before, p.EndsIn before name := by
  obtain ⟨before, last, hkept, hopen, hlast⟩ := exists_open (dropEnding p.bytes.reverse).reverse
  have hsteps : p.steps = (Path.mk before).steps ++ (stepOf? last).toList := by
    have hdropped := steps_dropEnding p.bytes.reverse
    rw [List.reverse_reverse, hkept, hopen.steps_append hlast] at hdropped
    exact hdropped.symm
  have hgetLast := getLast?_steps_of_lastName? h
  -- The last segment says something, since what says nothing was cut off.
  have hsome : stepOf? last ≠ none := by
    intro hnone
    rcases hopen with rfl | ⟨more, rfl⟩
    · rw [hsteps, hnone] at hgetLast
      cases hgetLast
    · have hreverse : stepOf? last.reverse = none := by
        rcases stepOf?_eq_none_iff.1 hnone with rfl | rfl <;> rfl
      refine not_prefix_dropEnding p.bytes.reverse hreverse ⟨more.reverse, ?_⟩
      rw [← List.reverse_reverse (dropEnding _), hkept]
      simp
  obtain ⟨step, hstep⟩ := Option.ne_none_iff_exists'.1 hsome
  rw [hsteps, hstep, Option.toList_some, List.getLast?_concat] at hgetLast
  rw [Option.some.inj hgetLast] at hstep
  obtain rfl := eq_of_stepOf? hstep
  exact ⟨before, hopen, ⟨hlast, hstep⟩, hkept⟩

theorem endsIn_mk (hopen : Open before) (hname : Plain name) : (Path.mk (before ++ name)).EndsIn before name := by
  refine ⟨hopen, hname, ?_⟩
  obtain ⟨more, last, rfl⟩ := List.eq_nil_or_concat name |>.resolve_left hname.ne_nil
  have hslash : slash ∉ more ∧ slash ≠ last := by simpa [not_or] using hname.slash_not_mem
  rw [List.concat_eq_append, List.reverse_append, List.reverse_append, List.reverse_singleton,
    List.singleton_append, List.cons_append, dropEnding_of_kept]
  · simp
  · exact hslash.2.symm
  · rintro rfl hhead
    rcases List.eq_nil_or_concat more with rfl | ⟨more, b, rfl⟩
    · exact hname.ne_dot rfl
    · have hb : b = slash := by simpa using hhead
      exact hslash.1 (by simp [hb])

section

variable (h : p.EndsIn before name)
include h

theorem EndsIn.steps_eq : p.steps = (Path.mk before).steps ++ [.into name] := by
  have hdropped := steps_dropEnding p.bytes.reverse
  rw [List.reverse_reverse, h.kept, h.isOpen.steps_append h.plain.slash_not_mem, h.plain.stepOf?,
    Option.toList_some] at hdropped
  exact hdropped.symm

theorem EndsIn.lastName?_eq : p.lastName? = some name := by
  rw [lastName?, h.steps_eq, List.getLast?_concat]

theorem EndsIn.exists_bytes :
    ∃ ending, p.bytes = before ++ name ++ ending ∧ (ending = [] ∨ ending.head? = some slash) := by
  obtain ⟨ending, hending, hhead⟩ := exists_ending p.bytes.reverse
  rw [List.reverse_reverse, h.kept] at hending
  exact ⟨ending, hending, hhead.symm.imp_left And.left⟩

theorem EndsIn.isAbsolute_eq : p.isAbsolute = (Path.mk before).isAbsolute := by
  obtain ⟨ending, hbytes, -⟩ := h.exists_bytes
  obtain ⟨b, rest, hname⟩ := List.exists_cons_of_ne_nil h.plain.ne_nil
  rw [isAbsolute, isAbsolute, hbytes]
  rcases before with _ | ⟨first, before⟩
  · have hb : slash ≠ b := (List.ne_and_not_mem_of_not_mem_cons (hname ▸ h.plain.slash_not_mem)).1
    simp [hname, hb.symm]
  · rfl

end

theorem EndsIn.parent_congr {q : Path} {other : Name} (h : p.EndsIn before name)
    (h' : q.EndsIn before other) : p.parent = q.parent := by
  have hbefore {r : Path} {name : Name} (h : r.EndsIn before name) :
      (dropEnding r.bytes.reverse).dropWhile (· ≠ slash) = before.reverse := by
    rw [← List.reverse_reverse (dropEnding _), h.kept, List.reverse_append,
      List.dropWhile_append_of_pos fun b hb => ?_]
    · rcases h.isOpen with rfl | ⟨more, rfl⟩
      · rfl
      · simp
    · have hne : b ≠ slash := fun heq => h.plain.slash_not_mem (heq ▸ List.mem_reverse.1 hb)
      exact decide_eq_true hne
  rw [parent, parent, hbefore h, hbefore h', h.isAbsolute_eq, h'.isAbsolute_eq]

theorem splitName_cases (name : Name) : splitName name = (name, none) ∨
    ∃ stem extension, splitName name = (stem, some extension) ∧ name = stem ++ dot :: extension := by
  have hparts := List.takeWhile_append_dropWhile (p := (· ≠ dot)) (l := name.reverse)
  rw [splitName]
  split
  · exact .inl rfl
  · exact .inl rfl
  · next b before _ hdrop =>
    have hb : b = dot := by
      have hhead := List.head?_dropWhile_not (· ≠ dot) name.reverse
      rw [hdrop] at hhead
      simpa using hhead
    rw [hdrop, hb] at hparts
    refine .inr ⟨_, _, rfl, List.reverse_inj.1 (hparts.symm.trans ?_)⟩
    simp

theorem EndsIn.withExtension_eq (h : p.EndsIn before name) {extension : Name} (hne : extension ≠ []) :
    p.withExtension extension = ⟨before ++ (splitName name).1 ++ dot :: extension⟩ := by
  have htake : (before ++ name).take ((before ++ name).length - name.length) = before := by
    rw [List.length_append, Nat.add_sub_cancel, List.take_left']
    rfl
  unfold withExtension
  simp only [h.lastName?_eq, h.kept, htake, List.isEmpty_eq_false_iff.2 hne]
  rfl

theorem EndsIn.temporary_eq (h : p.EndsIn before name) :
    p.temporary = ⟨before ++ (name ++ temporarySuffix)⟩ := by
  unfold temporary extension?
  rw [h.lastName?_eq, Option.bind_some]
  rcases splitName_cases name with hsplit | ⟨stem, extension, hsplit, hname⟩
  · rw [hsplit]
    simp only []
    rw [h.withExtension_eq (by decide), hsplit, List.append_assoc]
    rfl
  · rw [hsplit]
    simp only []
    rw [h.withExtension_eq (by simp [temporarySuffix]), hsplit, List.append_assoc, hname]
    simp

theorem EndsIn.temporary (h : p.EndsIn before name) : p.temporary.EndsIn before (name ++ temporarySuffix) := by
  rw [h.temporary_eq]
  exact endsIn_mk h.isOpen h.plain.append_temporarySuffix

theorem temporary_of_nameless (h : p.lastName? = none) : p.temporary = p := by
  simp only [Path.temporary, extension?, h, Option.bind_none, withExtension]

end

def opened (p : Path) : List UInt8 :=
  if p.bytes.isEmpty || p.bytes.getLast? == some slash then p.bytes else p.bytes ++ [slash]

section

variable (p : Path) {name : Name} (h : Plain name)

theorem open_opened : Open p.opened := by
  unfold opened
  split
  · next hopen =>
    rcases Bool.or_eq_true_iff.1 hopen with hempty | hlast
    · exact .inl (List.isEmpty_iff.1 hempty)
    · exact .inr (List.getLast?_eq_some_iff.1 (beq_iff_eq.1 hlast))
  · exact .inr ⟨_, rfl⟩

theorem steps_opened : (Path.mk p.opened).steps = p.steps := by
  unfold opened
  split
  · rfl
  · exact steps_append_segment p.bytes rfl

theorem isAbsolute_opened : (Path.mk p.opened).isAbsolute = p.isAbsolute := by
  unfold opened
  split
  · rfl
  · next hopen =>
    obtain ⟨b, rest, hbytes⟩ := List.exists_cons_of_ne_nil (l := p.bytes) (by rintro heq; simp [heq] at hopen)
    rw [isAbsolute, isAbsolute, hbytes]
    rfl

include h

theorem join_eq : p.join ⟨name⟩ = ⟨p.opened ++ name⟩ := by
  have hrelative : isAbsolute ⟨name⟩ = false := by
    obtain ⟨b, rest, rfl⟩ := List.exists_cons_of_ne_nil h.ne_nil
    have hb : slash ≠ b := (List.ne_and_not_mem_of_not_mem_cons h.slash_not_mem).1
    simp [isAbsolute, hb.symm]
  rw [join, hrelative, Bool.false_or, opened]
  cases hempty : p.bytes.isEmpty
  · cases hlast : p.bytes.getLast? == some slash
    · simp
    · simp
  · simp [List.isEmpty_iff.1 hempty]

theorem endsIn_join : (p.join ⟨name⟩).EndsIn p.opened name := by
  rw [p.join_eq h]
  exact endsIn_mk p.open_opened h

theorem getLast?_steps_join : (p.join ⟨name⟩).steps.getLast? = some (.into name) := by
  rw [(p.endsIn_join h).steps_eq, List.getLast?_concat]

theorem temporary_join : (p.join ⟨name⟩).temporary = p.join ⟨name ++ temporarySuffix⟩ := by
  rw [(p.endsIn_join h).temporary_eq, p.join_eq h.append_temporarySuffix]

end

end Path

end AddressLookup
