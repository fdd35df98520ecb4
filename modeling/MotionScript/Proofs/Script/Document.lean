import MotionScript.Script.Document
import Mathlib

/-!
# How far a document is read

A malformed part of a document ends what it is in, and nothing else: an entry is left out by itself, and a malformed
step or sequence ends the list of its own set. What is well formed is said here without the reader, so that reading
is told by the first place at which a document is not.

* `Step.Spells`, `Step.IsForm`: the values that are well-formed steps; `ofJson?_eq_some_iff`.
* `ScriptSet.Cut`: a list of sequences as far as it is well formed; `sequencesOf_eq_iff`.
* `Document.Gives`: what an entry gives; `toList_ofJson?_eq_iff`.
* `Document.read_as_far_as_well_formed`: what a document gives.
-/

namespace MotionScript

/-! ## Steps -/

theorem StepKind.ofKeyword?_eq_some_iff {word : String} {kind : StepKind} :
    ofKeyword? word = some kind ↔ kind.keyword = word := by
  constructor
  · intro h
    have hfound := List.find?_some h
    exact beq_iff_eq.1 hfound
  · rintro rfl
    cases kind <;> decide

theorem Json.mapM_scalar?_eq_some_iff {vs : List Json} {xs : List Scalar} :
    vs.mapM scalar? = some xs ↔ ∃ numbers : List Number, vs = numbers.map .number ∧ xs = numbers.map (·.toScalar) := by
  induction vs generalizing xs with
  | nil =>
    constructor
    · intro h
      cases h
      exact ⟨[], rfl, rfl⟩
    · rintro ⟨numbers, hnumbers, rfl⟩
      rw [List.map_eq_nil_iff.1 hnumbers.symm]
      rfl
  | cons v vs ih =>
    rw [List.mapM_cons]
    constructor
    · intro h
      obtain ⟨x, hx, hrest⟩ := Option.bind_eq_some_iff.1 h
      obtain ⟨ys, hys, hxs⟩ := Option.bind_eq_some_iff.1 hrest
      obtain ⟨numbers, rfl, rfl⟩ := ih.1 hys
      cases hxs
      cases v with
      | number n =>
        cases hx
        exact ⟨n :: numbers, rfl, rfl⟩
      | null => cases hx
      | bool => cases hx
      | string => cases hx
      | array => cases hx
      | object => cases hx
    · rintro ⟨numbers, hnumbers, rfl⟩
      cases numbers with
      | nil => cases hnumbers
      | cons n numbers =>
        cases hnumbers
        simp [ih.2 ⟨numbers, rfl, rfl⟩, scalar?]

/-- The scalars of an array that holds numbers and nothing else. -/
theorem Json.scalars?_eq_some_iff {v : Json} {xs : List Scalar} :
    v.scalars? = some xs ↔ ∃ numbers : List Number, v = .array (numbers.map .number) ∧ xs = numbers.map (·.toScalar) := by
  cases v with
  | array vs => simp [scalars?, mapM_scalar?_eq_some_iff]
  | null => simp [scalars?]
  | bool => simp [scalars?]
  | number => simp [scalars?]
  | string => simp [scalars?]
  | object => simp [scalars?]

namespace Step

/-- **A value spells a keyword and numbers**: as an object with a type, and with arguments or without, whatever else is
in it, or as an array of the keyword and perhaps the arguments. -/
inductive Spells : Json → String → List Json.Number → Prop where
  | object {members : List (String × Json)} {word : String} {numbers : List Json.Number} :
      (Json.object members).field? "type" = some (.string word) →
      (Json.object members).field? "args" = some (.array (numbers.map .number)) → Spells (.object members) word numbers
  | bare {members : List (String × Json)} {word : String} :
      (Json.object members).field? "type" = some (.string word) →
      (Json.object members).field? "args" = none → Spells (.object members) word []
  | pair (word : String) (numbers : List Json.Number) :
      Spells (.array [.string word, .array (numbers.map .number)]) word numbers
  | single (word : String) : Spells (.array [.string word]) word []

/-- The argument in a place, where a missing one is zero. -/
def argument (numbers : List Json.Number) (place : ℕ) : Scalar := (numbers[place]?.map (·.toScalar)).getD 0

/-- **A value is well formed and stands for a step**: it spells the keyword of a kind, and the first three of its
numbers are those of the step. -/
def IsForm (v : Json) (step : Step) : Prop :=
  ∃ (kind : StepKind) (numbers : List Json.Number), Spells v kind.keyword numbers ∧
    step = ofParams kind (argument numbers 0) (argument numbers 1) (argument numbers 2)

theorem spelled?_eq_some_iff {v : Json} {word : String} {xs : List Scalar} :
    spelled? v = some (word, xs) ↔ ∃ numbers, Spells v word numbers ∧ xs = numbers.map (·.toScalar) := by
  constructor
  · intro h
    unfold spelled? at h
    split at h
    · cases h
      exact ⟨[], .single _, rfl⟩
    · obtain ⟨ys, hys, hpair⟩ := Option.map_eq_some_iff.1 h
      cases hpair
      obtain ⟨numbers, rfl, rfl⟩ := Json.scalars?_eq_some_iff.1 hys
      exact ⟨numbers, .pair _ _, rfl⟩
    · split at h
      · next htype hargs =>
        cases h
        exact ⟨[], .bare htype hargs, rfl⟩
      · next htype hargs =>
        obtain ⟨ys, hys, hpair⟩ := Option.map_eq_some_iff.1 h
        cases hpair
        obtain ⟨numbers, rfl, rfl⟩ := Json.scalars?_eq_some_iff.1 hys
        exact ⟨numbers, .object htype hargs, rfl⟩
      · cases h
    · cases h
  · rintro ⟨numbers, hspells, rfl⟩
    have hscalars : (Json.array (numbers.map .number)).scalars? = some (numbers.map (·.toScalar)) :=
      Json.scalars?_eq_some_iff.2 ⟨numbers, rfl, rfl⟩
    cases hspells with
    | object htype hargs => simp [spelled?, htype, hargs, hscalars]
    | bare htype hargs => simp [spelled?, htype, hargs]
    | pair => simp [spelled?, hscalars]
    | single => rfl

theorem ofWord?_eq {word : String} (numbers : List Json.Number) :
    ofWord? word (numbers.map (·.toScalar)) = (StepKind.ofKeyword? word).map fun kind =>
      ofParams kind (argument numbers 0) (argument numbers 1) (argument numbers 2) := by
  simp [ofWord?, argument]

/-- **The reader takes a value for a step just if it is well formed and stands for that step.** -/
theorem ofJson?_eq_some_iff {v : Json} {step : Step} : ofJson? v = some step ↔ IsForm v step := by
  constructor
  · intro h
    obtain ⟨⟨word, xs⟩, hspelled, hword⟩ := Option.bind_eq_some_iff.1 h
    obtain ⟨numbers, hspells, rfl⟩ := spelled?_eq_some_iff.1 hspelled
    obtain ⟨kind, hkind, hstep⟩ := Option.map_eq_some_iff.1 ((ofWord?_eq numbers).symm.trans hword)
    rw [← StepKind.ofKeyword?_eq_some_iff.1 hkind] at hspells
    exact ⟨kind, numbers, hspells, hstep.symm⟩
  · rintro ⟨kind, numbers, hspells, rfl⟩
    have hspelled := spelled?_eq_some_iff.2 ⟨numbers, hspells, rfl⟩
    have hkind : StepKind.ofKeyword? kind.keyword = some kind := StepKind.ofKeyword?_eq_some_iff.2 rfl
    simp [ofJson?, hspelled, ofWord?_eq, hkind]

theorem ofJson?_eq_none_iff {v : Json} : ofJson? v = none ↔ ∀ step, ¬IsForm v step := by
  rw [Option.eq_none_iff_forall_ne_some]
  simp only [ne_eq, ofJson?_eq_some_iff]

end Step

/-! ## Sequences -/

namespace ScriptSet

open Step (IsForm)

theorem steps_of_whole {vs : List Json} {seq : Sequence} (h : List.Forall₂ IsForm vs seq) : steps vs = (seq, true) := by
  induction h with
  | nil => rfl
  | cons hstep _ ih => simp [steps, Step.ofJson?_eq_some_iff.2 hstep, ih]

theorem steps_of_broken {vs rest : List Json} {bad : Json} {seq : Sequence} (h : List.Forall₂ IsForm vs seq)
    (hbad : ∀ step, ¬IsForm bad step) : steps (vs ++ bad :: rest) = (seq, false) := by
  induction h with
  | nil => simp [steps, Step.ofJson?_eq_none_iff.2 hbad]
  | cons hstep _ ih => simp [steps, Step.ofJson?_eq_some_iff.2 hstep, ih]

/-- All values are well-formed steps, or there is a first one that is not. -/
theorem whole_or_broken (vs : List Json) :
    (∃ seq, List.Forall₂ IsForm vs seq) ∨
      ∃ before bad rest seq, vs = before ++ bad :: rest ∧ List.Forall₂ IsForm before seq ∧ ∀ step, ¬IsForm bad step := by
  induction vs with
  | nil => exact .inl ⟨[], .nil⟩
  | cons v vs ih =>
    by_cases hv : ∃ step, IsForm v step
    · obtain ⟨step, hstep⟩ := hv
      rcases ih with ⟨seq, hseq⟩ | ⟨before, bad, rest, seq, rfl, hseq, hbad⟩
      · exact .inl ⟨step :: seq, .cons hstep hseq⟩
      · exact .inr ⟨v :: before, bad, rest, step :: seq, rfl, .cons hstep hseq, hbad⟩
    · exact .inr ⟨[], v, vs, [], rfl, .nil, not_exists.1 hv⟩

/-- A value is an array of well-formed steps. -/
def IsWhole (v : Json) (seq : Sequence) : Prop := ∃ vs, v = .array vs ∧ List.Forall₂ IsForm vs seq

/-- **The sequences of a list as far as it is well formed**: all of them; or those before the first element that is no
array; or those before the first one with a malformed step, and behind them the steps before that step. -/
inductive Cut : List Json → List Sequence → Prop where
  | whole {elements : List Json} {sequences : List Sequence} :
      List.Forall₂ IsWhole elements sequences → Cut elements sequences
  | stray {before rest : List Json} {bad : Json} {sequences : List Sequence} :
      List.Forall₂ IsWhole before sequences → (∀ vs, bad ≠ .array vs) → Cut (before ++ bad :: rest) sequences
  | broken {before rest vs more : List Json} {bad : Json} {sequences : List Sequence} {seq : Sequence} :
      List.Forall₂ IsWhole before sequences → List.Forall₂ IsForm vs seq → (∀ step, ¬IsForm bad step) →
      Cut (before ++ .array (vs ++ bad :: more) :: rest) (sequences ++ [seq])

theorem sequencesOf_of_stray {bad : Json} (h : ∀ vs, bad ≠ .array vs) (rest : List Json) :
    sequencesOf (bad :: rest) = [] := by
  cases bad with
  | array vs => exact absurd rfl (h vs)
  | null => rfl
  | bool => rfl
  | number => rfl
  | string => rfl
  | object => rfl

/-- Arrays of well-formed steps are read, and what is behind them as if they were not there. -/
theorem sequencesOf_append {before : List Json} {sequences : List Sequence}
    (h : List.Forall₂ IsWhole before sequences) (rest : List Json) :
    sequencesOf (before ++ rest) = sequences ++ sequencesOf rest := by
  induction h with
  | nil => rfl
  | cons hwhole _ ih =>
    obtain ⟨vs, rfl, hvs⟩ := hwhole
    simp [sequencesOf, steps_of_whole hvs, ih]

theorem sequencesOf_of_cut {elements : List Json} {sequences : List Sequence} (h : Cut elements sequences) :
    sequencesOf elements = sequences := by
  cases h with
  | whole hwhole =>
    have happend := sequencesOf_append hwhole []
    simpa [sequencesOf] using happend
  | stray hwhole hbad => rw [sequencesOf_append hwhole, sequencesOf_of_stray hbad, List.append_nil]
  | broken hwhole hvs hbad => rw [sequencesOf_append hwhole, sequencesOf, steps_of_broken hvs hbad]

theorem Cut.cons {v : Json} {seq : Sequence} {elements : List Json} {sequences : List Sequence} (hv : IsWhole v seq)
    (h : Cut elements sequences) : Cut (v :: elements) (seq :: sequences) := by
  cases h with
  | whole hwhole => exact .whole (.cons hv hwhole)
  | stray hwhole hbad => exact .stray (.cons hv hwhole) hbad
  | broken hwhole hvs hbad => exact .broken (.cons hv hwhole) hvs hbad

theorem exists_cut (elements : List Json) : ∃ sequences, Cut elements sequences := by
  induction elements with
  | nil => exact ⟨[], .whole .nil⟩
  | cons v elements ih =>
    obtain ⟨sequences, hcut⟩ := ih
    by_cases harray : ∃ vs, v = .array vs
    · obtain ⟨vs, rfl⟩ := harray
      rcases whole_or_broken vs with ⟨seq, hseq⟩ | ⟨before, bad, rest, seq, rfl, hseq, hbad⟩
      · exact ⟨seq :: sequences, hcut.cons ⟨vs, rfl, hseq⟩⟩
      · exact ⟨[seq], .broken .nil hseq hbad⟩
    · exact ⟨[], .stray .nil (not_exists.1 harray)⟩

/-- **The reader gives the sequences of a list as far as it is well formed.** -/
theorem sequencesOf_eq_iff {elements : List Json} {sequences : List Sequence} :
    sequencesOf elements = sequences ↔ Cut elements sequences := by
  constructor
  · rintro rfl
    obtain ⟨sequences, hcut⟩ := exists_cut elements
    rwa [sequencesOf_of_cut hcut]
  · exact sequencesOf_of_cut

end ScriptSet

/-! ## Entries -/

namespace Document

/-- An entry has a name and a list. -/
def Names (entry : Json) (name : String) (elements : List Json) : Prop :=
  entry.field? "name" = some (.string name) ∧ entry.field? "list" = some (.array elements)

/-- **What an entry gives**: nothing if it has no name that is a string or no list that is an array, else one set of
that name with the sequences of the list as far as it is well formed. -/
inductive Gives (entry : Json) : List ScriptSet → Prop where
  | skipped : (∀ name elements, ¬Names entry name elements) → Gives entry []
  | set {name : String} {elements : List Json} {sequences : List Sequence} :
      Names entry name elements → ScriptSet.Cut elements sequences → Gives entry [⟨name, sequences⟩]

theorem ofJson?_of_names {entry : Json} {name : String} {elements : List Json} (h : Names entry name elements) :
    ScriptSet.ofJson? entry = some ⟨name, ScriptSet.sequencesOf elements⟩ := by
  simp [ScriptSet.ofJson?, h.1, h.2]

theorem ofJson?_of_not_names {entry : Json} (h : ∀ name elements, ¬Names entry name elements) :
    ScriptSet.ofJson? entry = none := by
  unfold ScriptSet.ofJson?
  split
  · next hname hlist => exact absurd ⟨hname, hlist⟩ (h _ _)
  · rfl

/-- The set of an entry, if it has one, is what the entry gives. -/
theorem toList_ofJson?_eq_iff {entry : Json} {sets : List ScriptSet} :
    (ScriptSet.ofJson? entry).toList = sets ↔ Gives entry sets := by
  constructor
  · rintro rfl
    by_cases hnames : ∃ name elements, Names entry name elements
    · obtain ⟨name, elements, hnames⟩ := hnames
      rw [ofJson?_of_names hnames]
      exact .set hnames (ScriptSet.sequencesOf_eq_iff.1 rfl)
    · simp only [not_exists] at hnames
      rw [ofJson?_of_not_names hnames]
      exact .skipped hnames
  · intro h
    cases h with
    | skipped hnames => rw [ofJson?_of_not_names hnames, Option.toList_none]
    | set hnames hcut => rw [ofJson?_of_names hnames, ScriptSet.sequencesOf_of_cut hcut, Option.toList_some]

/-! ## Documents -/

theorem ofJson_array (entries : List Json) :
    ofJson (.array entries) = .ok (entries.flatMap fun entry => (ScriptSet.ofJson? entry).toList) := by
  rw [ofJson, List.filterMap_eq_flatMap_toList]

/-- **A document is read as far as it is well formed.** Reading a value fails just if it is no array. Else it gives, in
order, what each entry gives, and that is the same whatever the other entries are: what an entry gives alone. So a
document of two parts gives what the first one gives and then what the second one gives, and what is malformed in an
entry does not affect any other. A text that is the value is read alike. -/
theorem read_as_far_as_well_formed :
    (∀ v, (∃ e, ofJson v = .error e) ↔ ∀ entries, v ≠ .array entries) ∧
      (∀ entry sets, ofJson (.array [entry]) = .ok sets ↔ Gives entry sets) ∧
      (∀ entries sets, ofJson (.array entries) = .ok sets ↔
        ∃ parts, List.Forall₂ Gives entries parts ∧ parts.flatten = sets) ∧
      (∀ entries more, ofJson (.array (entries ++ more)) =
        do return (← ofJson (.array entries)) ++ (← ofJson (.array more))) ∧
      ∀ text v, Json.read? text = some v → read text = ofJson v := by
  refine ⟨?_, ?_, ?_, ?_, ?_⟩
  · intro v
    cases v with
    | array entries => simp [ofJson]
    | null => simp [ofJson]
    | bool => simp [ofJson]
    | number => simp [ofJson]
    | string => simp [ofJson]
    | object => simp [ofJson]
  · intro entry sets
    rw [ofJson_array, ← toList_ofJson?_eq_iff]
    simp
  · intro entries sets
    rw [ofJson_array]
    constructor
    · intro h
      cases h
      refine ⟨entries.map fun entry => (ScriptSet.ofJson? entry).toList, ?_, rfl⟩
      rw [List.forall₂_map_right_iff]
      exact List.forall₂_same.2 fun entry _ => toList_ofJson?_eq_iff.1 rfl
    · rintro ⟨parts, hparts, rfl⟩
      congr 1
      induction hparts with
      | nil => rfl
      | cons hgives _ ih => rw [List.flatMap_cons, List.flatten_cons, toList_ofJson?_eq_iff.2 hgives, ih]
  · intro entries more
    rw [ofJson_array, ofJson_array, ofJson_array, List.flatMap_append]
    rfl
  · intro text v hv
    rw [read, hv]

/-- An entry without a name, and one whose list ends at its second step. -/
theorem read_as_far_as_well_formed_broken :
    let text := "[\x7b\"list\":[]\x7d,\x7b\"name\":\"a\",\"list\":[[[\"Delete\"],[\"Go\"]],[]]\x7d]"
    ∃ v, Json.read? text = some v ∧ read text = .ok [⟨"a", [[.vanish]]⟩] := by
  intro text
  let vanish : Json := .array [.string "Delete"]
  let bad : Json := .array [.string "Go"]
  let nameless : Json := .object [("list", .array [])]
  let a : Json := .object [("name", .string "a"), ("list", .array [.array [vanish, bad], .array []])]
  have hv : Json.read? text = some (.array [nameless, a]) := by cbv
  have hvanish : Step.IsForm vanish .vanish := ⟨.vanish, [], .single _, rfl⟩
  have hbad : ∀ step, ¬Step.IsForm bad step := Step.ofJson?_eq_none_iff.1 rfl
  have hnameless : Gives nameless [] := by
    refine .skipped ?_
    rintro name elements ⟨hname, -⟩
    cases hname
  have hcut : ScriptSet.Cut ([] ++ .array ([vanish] ++ bad :: []) :: [.array []]) ([] ++ [[.vanish]]) :=
    .broken .nil (.cons hvanish .nil) hbad
  have ha : Gives a [⟨"a", [[.vanish]]⟩] := .set ⟨rfl, rfl⟩ hcut
  obtain ⟨-, -, hparts, -, hread⟩ := read_as_far_as_well_formed
  refine ⟨_, hv, ?_⟩
  rw [hread text _ hv, hparts]
  exact ⟨_, .cons hnameless (.cons ha .nil), rfl⟩

end Document

end MotionScript
