import MotionScript.Script.Library
import Mathlib.Data.List.Basic

/-!
# Libraries and what they were offered

A library keeps the names of its sets twice, as the keys under which it finds them and as the list of the order in
which they came. Both are told by the sets that it has been offered, taken or not.

* `Offered`: how a library has come about, and which sets it has been offered.
* `Keeps`: what ties the two copies of the names to these sets; `Keeps.insert` is one step, `keeps_of_offered` all.
* `first_wins_of_offered`: what each query gives, told by the sets offered.
-/

namespace MotionScript.ScriptLibrary

variable {offered : List ScriptSet} {l : ScriptLibrary}

/-- The names in a list of sets, each of them once, where it comes first. -/
def distinctNames (sets : List ScriptSet) : List String := (sets.map (·.name)).eraseDups

/-- **The library has been offered these sets**, in this order: one by one, or many at a time. It was empty at first,
or held what a text spells. -/
inductive Offered : List ScriptSet → ScriptLibrary → Prop where
  | empty : Offered [] empty
  | read {text : String} {sets : List ScriptSet} {l : ScriptLibrary} :
      Document.read text = .ok sets → ScriptLibrary.read text = .ok l → Offered sets l
  | load {file : Except FileError String} {sets : List ScriptSet} {l : ScriptLibrary} :
      Document.load file = .ok sets → ScriptLibrary.load file = .ok l → Offered sets l
  | insert {offered : List ScriptSet} {l : ScriptLibrary} (s : ScriptSet) :
      Offered offered l → Offered (offered ++ [s]) (l.insert s).1
  | extend {offered : List ScriptSet} {l : ScriptLibrary} (sets : List ScriptSet) :
      Offered offered l → Offered (offered ++ sets) (l.extend sets)

/-- **A library keeps the first set of each name** that it has been offered, under that name, and has the name in its
place in the order. -/
structure Keeps (offered : List ScriptSet) (l : ScriptLibrary) : Prop where
  order : l.order = distinctNames offered
  nodup : l.order.Nodup
  lookup : ∀ name, l.scripts.lookup name = offered.find? (·.name == name)
  keys : l.scripts.map (·.1) = l.order.reverse
  named : ∀ p ∈ l.scripts, p.2.name = p.1

/-! ## One set -/

theorem isSome_find?_iff (sets : List ScriptSet) (name : String) :
    (sets.find? (·.name == name)).isSome ↔ name ∈ sets.map (·.name) := by
  simp

theorem distinctNames_concat (sets : List ScriptSet) (s : ScriptSet) :
    distinctNames (sets ++ [s]) =
      if s.name ∈ sets.map (·.name) then distinctNames sets else distinctNames sets ++ [s.name] := by
  unfold distinctNames
  rw [List.map_append, List.eraseDups_append, List.map_singleton, List.removeAll]
  by_cases h : s.name ∈ sets.map (·.name)
  · rw [List.filter_cons_of_neg (by simpa using h), if_pos h]
    simp
  · rw [List.filter_cons_of_pos (by simpa using h), if_neg h]
    simp [List.eraseDups_cons]

theorem mem_distinctNames {sets : List ScriptSet} {name : String} :
    name ∈ distinctNames sets ↔ name ∈ sets.map (·.name) := List.mem_eraseDups

/-- The first set of a name is not changed by one that comes behind it. -/
theorem find?_concat (sets : List ScriptSet) (s : ScriptSet) (name : String) :
    (sets ++ [s]).find? (·.name == name) =
      if s.name ∈ sets.map (·.name) ∨ name ≠ s.name then sets.find? (·.name == name) else some s := by
  rw [List.find?_append, List.find?_singleton]
  by_cases hname : name = s.name
  · subst hname
    by_cases htaken : s.name ∈ sets.map (·.name)
    · obtain ⟨first, hfirst⟩ := Option.isSome_iff_exists.1 ((isSome_find?_iff sets s.name).2 htaken)
      simp [htaken, hfirst]
    · have hnone : sets.find? (·.name == s.name) = none := by
        rw [← Option.not_isSome_iff_eq_none, isSome_find?_iff]
        exact htaken
      simp [htaken, hnone]
  · simp [hname, Ne.symm hname]

/-- A set is taken if its name has not been offered before, and refused else. -/
theorem Keeps.insert_eq (h : Keeps offered l) (s : ScriptSet) :
    l.insert s =
      if s.name ∈ offered.map (·.name) then (l, false)
      else ({ scripts := (s.name, s) :: l.scripts, order := l.order ++ [s.name] }, true) := by
  have htaken : (l.get? s.name).isSome ↔ s.name ∈ offered.map (·.name) := by
    rw [get?, h.lookup, isSome_find?_iff]
  unfold insert
  simp only [htaken]

/-- **One set more** leaves a library that keeps the first set of each name. -/
theorem Keeps.insert (h : Keeps offered l) (s : ScriptSet) : Keeps (offered ++ [s]) (l.insert s).1 := by
  rw [h.insert_eq]
  by_cases htaken : s.name ∈ offered.map (·.name)
  · rw [if_pos htaken]
    refine ⟨?_, h.nodup, ?_, h.keys, h.named⟩
    · rw [distinctNames_concat, if_pos htaken, h.order]
    · intro name
      rw [find?_concat, if_pos (.inl htaken), h.lookup]
  · rw [if_neg htaken]
    have hnew : s.name ∉ l.order := by
      rw [h.order, mem_distinctNames]
      exact htaken
    refine ⟨?_, ?_, ?_, ?_, ?_⟩
    · rw [distinctNames_concat, if_neg htaken, h.order]
    · rw [List.nodup_append]
      refine ⟨h.nodup, by simp, ?_⟩
      intro name hname fresh hfresh
      rw [List.mem_singleton.1 hfresh]
      rintro rfl
      exact hnew hname
    · intro name
      rw [find?_concat, List.lookup_cons]
      by_cases hname : name = s.name
      · simp [hname, htaken]
      · simp [beq_false_of_ne hname, hname, h.lookup]
    · simp [h.keys]
    · intro p hp
      rcases List.mem_cons.1 hp with rfl | hp
      · rfl
      · exact h.named p hp

/-! ## Many sets -/

theorem keeps_empty : Keeps [] empty := ⟨rfl, List.nodup_nil, fun _ => rfl, rfl, List.forall_mem_nil _⟩

theorem Keeps.extend (h : Keeps offered l) (sets : List ScriptSet) : Keeps (offered ++ sets) (l.extend sets) := by
  -- on the sets that are still to be offered
  induction sets generalizing offered l with
  | nil =>
    rw [List.append_nil]
    exact h
  | cons s sets ih =>
    have hrest := ih (h.insert s)
    rw [List.append_assoc] at hrest
    exact hrest

theorem keeps_ofList (sets : List ScriptSet) : Keeps sets (ofList sets) := keeps_empty.extend sets

/-- **All libraries** keep the first set of each name that they have been offered. -/
theorem keeps_of_offered (h : Offered offered l) : Keeps offered l := by
  induction h with
  | empty => exact keeps_empty
  | read hsets hl =>
    rw [ScriptLibrary.read, hsets] at hl
    cases hl
    exact keeps_ofList _
  | load hsets hl =>
    rw [ScriptLibrary.load, hsets] at hl
    cases hl
    exact keeps_ofList _
  | insert s _ ih => exact ih.insert s
  | extend sets _ ih => exact ih.extend sets

/-! ## Queries -/

theorem Keeps.first?_eq (h : Keeps offered l) : l.first? = offered.head? := by
  unfold first?
  rw [h.order]
  cases offered with
  | nil => rfl
  | cons s rest =>
    have hfound : l.get? s.name = some s := by
      rw [get?, h.lookup]
      simp
    simp [distinctNames, List.eraseDups_cons, hfound]

/-- **A library is the registry of what it was offered, where the first set of a name wins.** The names are those
offered, each once, in the order in which they came first; the set found under a name is the first one offered that
has it, and none is found just if none has it; the first set is the first one offered. The size counts the names,
and a library is empty just if nothing has been offered. A set that is offered is taken just if its name has not been
offered before. Every set stands under its own name, and the names under which the sets stand are those of the order,
without repetition. -/
theorem first_wins_of_offered (h : Offered offered l) :
    l.names = distinctNames offered ∧
      (∀ name, l.get? name = offered.find? (·.name == name)) ∧
      (∀ name, l.get? name = none ↔ ∀ s ∈ offered, s.name ≠ name) ∧
      l.first? = offered.head? ∧
      l.size = (distinctNames offered).length ∧
      (l.isEmpty ↔ distinctNames offered = []) ∧
      (∀ s, (l.insert s).2 = true ↔ ∀ t ∈ offered, t.name ≠ s.name) ∧
      (∀ p ∈ l.scripts, p.2.name = p.1) ∧
      (∀ name, name ∈ l.order ↔ (l.scripts.lookup name).isSome) ∧
      l.scripts.map (·.1) = l.order.reverse ∧ l.order.Nodup := by
  have hkeeps := keeps_of_offered h
  refine ⟨hkeeps.order, hkeeps.lookup, ?_, hkeeps.first?_eq, ?_, ?_, ?_, hkeeps.named, ?_, hkeeps.keys, hkeeps.nodup⟩
  · intro name
    rw [get?, hkeeps.lookup]
    simp
  · rw [size, hkeeps.order]
  · rw [isEmpty, hkeeps.order, List.isEmpty_iff]
  · intro s
    rw [hkeeps.insert_eq]
    split
    · next htaken => simpa using htaken
    · next hfree => simpa using hfree
  · intro name
    rw [hkeeps.order, mem_distinctNames, hkeeps.lookup, isSome_find?_iff]

/-- Two sets of a text, and offers of both names after it. -/
theorem first_wins_of_document :
    let text := "[\x7b\"name\":\"a\",\"list\":[[]]\x7d,\x7b\"name\":\"b\",\"list\":[]\x7d]"
    let offered : List ScriptSet := [⟨"a", [[]]⟩, ⟨"b", []⟩] ++ [⟨"b", [[.vanish]]⟩] ++ [⟨"c", []⟩, ⟨"a", []⟩]
    ∃ l, ScriptLibrary.read text = .ok l ∧
      let l := (l.insert ⟨"b", [[.vanish]]⟩).1.extend [⟨"c", []⟩, ⟨"a", []⟩]
      Offered offered l ∧ l.names = ["a", "b", "c"] ∧ l.get? "b" = some ⟨"b", []⟩ ∧ l.get? "d" = none ∧
        l.first? = some ⟨"a", [[]]⟩ ∧ l.size = 3 := by
  intro text offered
  have hsets : Document.read text = .ok [⟨"a", [[]]⟩, ⟨"b", []⟩] := by decide +kernel
  have hread : ScriptLibrary.read text = .ok (ofList [⟨"a", [[]]⟩, ⟨"b", []⟩]) := by
    rw [ScriptLibrary.read, hsets]
    rfl
  refine ⟨_, hread, ?_⟩
  intro l
  have hoffered : Offered offered l :=
    .extend [⟨"c", []⟩, ⟨"a", []⟩] (.insert ⟨"b", [[.vanish]]⟩ (.read hsets hread))
  obtain ⟨hnames, hget, hnone, hfirst, hsize, -⟩ := first_wins_of_offered hoffered
  refine ⟨hoffered, ?_, ?_, ?_, hfirst, ?_⟩
  · rw [hnames]
    decide
  · rw [hget]
    decide
  · rw [hnone]
    decide
  · rw [hsize]
    decide

end MotionScript.ScriptLibrary
