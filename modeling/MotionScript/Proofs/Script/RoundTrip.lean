import MotionScript.Proofs.Scalar.Floor
import MotionScript.Proofs.Scalar.Widen
import MotionScript.Proofs.Script.Document

/-!
# Scripts that are written and read back

A step is written as its keyword and its parameters, and there is more than one way to do that. Each of them is read as
the same step, as long as the parameters are finite and the whole numbers among them have no more than 24 bits.

* `Json.Number.IsExactly`: a number that is exactly a scalar.
* `Step.Expressible`, `Step.ofParams_params`: a step is what its parameters make.
* `Step.Writes`, `ScriptSet.Writes`, `Document.Writes`: the ways to write scripts.
* `Document.reads_back`: all of them are read back.
-/

namespace MotionScript

/-! ## Numbers -/

namespace Json.Number

open Scalar (toRat narrow_widen ofNat_eq)

/-- The value of a number. -/
def value : Number → ℚ
  | natural n => n
  | negative n => -n
  | float y => Scalar.valueOf (Scalar.wideParts y)

/-- **A number is exactly a scalar**: a whole number with its value, where a zero with a sign is none, or the number of
the wide format with its value. -/
inductive IsExactly : Number → Scalar → Prop where
  | natural {n : ℕ} {x : Scalar} : x.isFinite → x ≠ -0 → x.toRat = n → IsExactly (.natural n) x
  | negative {n : ℕ} {x : Scalar} : x.isFinite → 0 < n → x.toRat = -n → IsExactly (.negative n) x
  | float {x : Scalar} : x.isFinite → IsExactly (.float x.widen) x

/-- What is exactly a scalar has its value. -/
theorem IsExactly.value_eq {n : Number} {x : Scalar} (h : n.IsExactly x) : n.value = x.toRat := by
  cases h with
  | natural _ _ hval => exact hval.symm
  | negative _ _ hval => exact hval.symm
  | float hx => exact (Scalar.valueOf_widen hx).2

/-- And it is read as that scalar. -/
theorem IsExactly.toScalar {n : Number} {x : Scalar} (h : n.IsExactly x) : n.toScalar = x := by
  cases h with
  | natural hx hne hval => exact ofNat_eq hx hne hval
  | @negative n _ hx hn hval =>
    have hpos : (0 : ℚ) < n := by exact_mod_cast hn
    have hval' : (-x).toRat = n := by rw [Scalar.toRat_neg, hval, neg_neg]
    have hne : -x ≠ -0 := by
      intro hzero
      rw [hzero, Scalar.toRat_neg, Scalar.toRat_zero, neg_zero] at hval'
      exact hpos.ne hval'
    have hneg := ofNat_eq (Scalar.isFinite_neg hx) hne hval'
    have hscalar : (Number.negative n).toScalar = -(-x) := congrArg Neg.neg hneg
    have hsame : (-(-x)).toRat = x.toRat := by rw [Scalar.toRat_neg, Scalar.toRat_neg, neg_neg]
    rw [hscalar]
    refine Scalar.eq_of_toRat (Scalar.isFinite_neg (Scalar.isFinite_neg hx)) hx hsame ?_
    rw [hsame, hval]
    exact (neg_lt_zero.2 hpos).ne
  | float hx => exact narrow_widen hx

end Json.Number

/-! ## Steps -/

namespace Step

/-- **A step that can be written**: its numbers are finite, and a count or an animation has no more than 24 bits. -/
def Expressible : Step → Prop
  | move direction speed => direction.isFinite ∧ speed.isFinite
  | accelerate direction amount => direction.isFinite ∧ amount.isFinite
  | wait duration => duration.isFinite
  | path duration count _ => duration.isFinite ∧ count ≤ 2 ^ 24
  | point p => p.x.isFinite ∧ p.y.isFinite
  | vanish => True
  | generate speed direction => speed.isFinite ∧ direction.isFinite
  | animate sequence => sequence.natAbs ≤ 2 ^ 24

/-- The three numbers of a step, in order. -/
def numbers (step : Step) : List Scalar := [step.params.1, step.params.2.1, step.params.2.2]

theorem ofParam_param (interpolation : Interpolation) : Interpolation.ofParam interpolation.param = interpolation := by
  cases interpolation <;> decide +kernel

theorem toNat_max_ofNat {count : ℕ} (h : count ≤ 2 ^ 24) :
    (Scalar.max (.ofNat count) 0).toUInt64.toNat = count := by
  obtain ⟨hfinite, hval⟩ := Scalar.toRat_ofNat_exact h
  rcases Nat.eq_zero_or_pos count with rfl | hpos
  · decide +kernel
  · have hlt : (0 : Scalar) < .ofNat count := by
      rw [Scalar.lt_iff Scalar.within_zero.finite hfinite, hval, Scalar.toRat_zero]
      exact_mod_cast hpos
    rw [Scalar.max_zero_of_pos hlt, Scalar.toNat_toUInt64_ofNat h]

/-- **A step is what its kind and its numbers make.** -/
theorem ofParams_params {step : Step} (h : step.Expressible) :
    ofParams step.kind step.params.1 step.params.2.1 step.params.2.2 = step := by
  cases step with
  | path duration count interpolation =>
    simp only [kind, params, ofParams, toNat_max_ofNat h.2, ofParam_param]
  | animate sequence => simp only [kind, params, ofParams, Scalar.toInt_truncate_ofInt h]
  | move => rfl
  | accelerate => rfl
  | wait => rfl
  | point => rfl
  | vanish => rfl
  | generate => rfl

/-- The numbers of a step are finite. -/
theorem isFinite_of_mem_numbers {step : Step} (h : step.Expressible) : ∀ x ∈ step.numbers, x.isFinite := by
  have hzero : (0 : Scalar).isFinite := rfl
  cases step with
  | move => simpa [Expressible, numbers, params, hzero] using h
  | accelerate => simpa [Expressible, numbers, params, hzero] using h
  | wait => simpa [Expressible, numbers, params, hzero] using h
  | path duration count interpolation =>
    have hcount := (Scalar.toRat_ofNat_exact h.2).1
    have hparam : interpolation.param.isFinite := by cases interpolation <;> rfl
    simpa [numbers, params, hcount, hparam] using h.1
  | point => simpa [Expressible, numbers, params, hzero] using h
  | vanish => simp [numbers, params, hzero]
  | generate => simpa [Expressible, numbers, params, hzero] using h
  | animate sequence =>
    have hsequence := (Scalar.toRat_ofInt h (by norm_num)).1.finite
    simp [numbers, params, hzero, hsequence]

/-- **Numbers spell scalars**: each number is exactly the scalar in its place. Zeros at the end may be left out, and
what is behind the last scalar does not count. -/
inductive Lists : List Json.Number → List Scalar → Prop where
  | more (ns : List Json.Number) : Lists ns []
  | zeros {xs : List Scalar} : (∀ x ∈ xs, x = 0) → Lists [] xs
  | cons {n : Json.Number} {ns : List Json.Number} {x : Scalar} {xs : List Scalar} :
      n.IsExactly x → Lists ns xs → Lists (n :: ns) (x :: xs)

theorem Lists.argument {ns : List Json.Number} {xs : List Scalar} (h : Lists ns xs) {place : ℕ} {x : Scalar}
    (hx : xs[place]? = some x) : argument ns place = x := by
  induction h generalizing place with
  | more => cases hx
  | zeros hzero =>
    rw [hzero x (List.mem_of_getElem? hx)]
    rfl
  | cons hexact _ ih =>
    cases place with
    | zero =>
      cases hx
      exact hexact.toScalar
    | succ place => exact ih hx

/-- **A value writes a step**: it spells the keyword of its kind, and numbers that spell its own. -/
def Writes (v : Json) (step : Step) : Prop :=
  ∃ ns, Spells v step.kind.keyword ns ∧ Lists ns step.numbers

theorem Writes.isForm {v : Json} {step : Step} (hv : Writes v step) (h : step.Expressible) : IsForm v step := by
  obtain ⟨ns, hspells, hlists⟩ := hv
  refine ⟨step.kind, ns, hspells, ?_⟩
  rw [hlists.argument rfl, hlists.argument rfl, hlists.argument rfl, ofParams_params h]

theorem isForm_of_writes {vs : List Json} {seq : Sequence} (hvs : List.Forall₂ Writes vs seq)
    (h : ∀ step ∈ seq, step.Expressible) : List.Forall₂ IsForm vs seq := by
  induction hvs with
  | nil => exact .nil
  | cons hv _ ih =>
    rw [List.forall_mem_cons] at h
    exact .cons (hv.isForm h.1) (ih h.2)

theorem lists_float {xs : List Scalar} (h : ∀ x ∈ xs, x.isFinite) : Lists (xs.map fun x => .float x.widen) xs := by
  induction xs with
  | nil => exact .more _
  | cons x xs ih =>
    rw [List.forall_mem_cons] at h
    exact .cons (.float h.1) (ih h.2)

/-- The object of a step writes it. -/
theorem writes_stepJson {step : Step} (h : step.Expressible) : Writes (Document.stepJson step) step := by
  have hlists := lists_float (isFinite_of_mem_numbers h)
  exact ⟨_, .object rfl rfl, hlists⟩

end Step

/-! ## Documents -/

namespace ScriptSet

/-- A value writes a sequence: it is an array of values that write the steps. -/
def WritesSequence (v : Json) (seq : Sequence) : Prop := ∃ vs, v = .array vs ∧ List.Forall₂ Step.Writes vs seq

/-- **A value writes a set**: it has its name, and a list of values that write the sequences. -/
def Writes (entry : Json) (s : ScriptSet) : Prop :=
  ∃ elements, Document.Names entry s.name elements ∧ List.Forall₂ WritesSequence elements s.sequences

/-- All steps of a set can be written. -/
def Expressible (s : ScriptSet) : Prop := ∀ seq ∈ s.sequences, ∀ step ∈ seq, step.Expressible

theorem sequencesOf_of_writes {elements : List Json} {sequences : List Sequence}
    (hwrites : List.Forall₂ WritesSequence elements sequences)
    (h : ∀ seq ∈ sequences, ∀ step ∈ seq, step.Expressible) : sequencesOf elements = sequences := by
  have hwhole : List.Forall₂ IsWhole elements sequences := by
    induction hwrites with
    | nil => exact .nil
    | cons hseq _ ih =>
      rw [List.forall_mem_cons] at h
      obtain ⟨vs, rfl, hvs⟩ := hseq
      exact .cons ⟨vs, rfl, Step.isForm_of_writes hvs h.1⟩ (ih h.2)
  exact sequencesOf_of_cut (.whole hwhole)

theorem ofJson?_of_writes {entry : Json} {s : ScriptSet} (hwrites : Writes entry s) (h : s.Expressible) :
    ofJson? entry = some s := by
  obtain ⟨elements, hnames, hsequences⟩ := hwrites
  rw [Document.ofJson?_of_names hnames, sequencesOf_of_writes hsequences h]

/-- The entry of a set writes it. -/
theorem writes_setJson {s : ScriptSet} (h : s.Expressible) : Writes (Document.setJson s) s := by
  refine ⟨_, ⟨rfl, rfl⟩, ?_⟩
  rw [List.forall₂_map_left_iff]
  refine List.forall₂_same.2 fun seq hseq => ⟨_, rfl, ?_⟩
  rw [List.forall₂_map_left_iff]
  exact List.forall₂_same.2 fun step hstep => Step.writes_stepJson (h seq hseq step hstep)

end ScriptSet

namespace Document

/-- A value writes sets: it is an array of values that write them. -/
def Writes (v : Json) (sets : List ScriptSet) : Prop :=
  ∃ entries, v = .array entries ∧ List.Forall₂ ScriptSet.Writes entries sets

theorem ofJson_of_writes {v : Json} {sets : List ScriptSet} (hwrites : Writes v sets)
    (h : ∀ s ∈ sets, s.Expressible) : ofJson v = .ok sets := by
  obtain ⟨entries, rfl, hentries⟩ := hwrites
  rw [ofJson]
  congr 1
  induction hentries with
  | nil => rfl
  | cons hentry _ ih =>
    rw [List.forall_mem_cons] at h
    rw [List.filterMap_cons_some (ScriptSet.ofJson?_of_writes hentry h.1), ih h.2]

/-- The document of sets writes them. -/
theorem writes_toJson {sets : List ScriptSet} (h : ∀ s ∈ sets, s.Expressible) : Writes (toJson sets) sets := by
  refine ⟨_, rfl, ?_⟩
  rw [List.forall₂_map_left_iff]
  exact List.forall₂_same.2 fun s hs => ScriptSet.writes_setJson (h s hs)

/-- **Every script is read back from what it is written as.** Sets whose steps have finite numbers, and counts and
animations of no more than 24 bits, are what their document is read as. And so is every document that writes them:
each step as an object or as an array, with the zeros at the end of its numbers or without them, and with whatever
other numbers behind them. -/
theorem reads_back {sets : List ScriptSet} (h : ∀ s ∈ sets, s.Expressible) :
    ofJson (toJson sets) = .ok sets ∧ ∀ v, Writes v sets → ofJson v = .ok sets :=
  ⟨ofJson_of_writes (writes_toJson h) h, fun _ hv => ofJson_of_writes hv h⟩

/-- Steps without the zeros of their object, with a number too many, and with no numbers at all. -/
theorem reads_back_arrays :
    let sets : List ScriptSet := [⟨"a", [[.path 0.5 2 .spline, .animate (-1), .vanish], []]⟩]
    let path : Json := .array [.string "Path", .array [.number (.float (Scalar.widen 0.5)), .number (.natural 2)]]
    let animate : Json := .array [.string "Animation",
      .array [.number (.negative 1), .number (.natural 0), .number (.natural 0), .number (.natural 7)]]
    let vanish : Json := .array [.string "Delete"]
    let doc : Json := .array [.object [("name", .string "a"),
      ("list", .array [.array [path, animate, vanish], .array []])]]
    (∀ s ∈ sets, s.Expressible) ∧ ofJson (toJson sets) = .ok sets ∧ Writes doc sets ∧ ofJson doc = .ok sets := by
  intro sets path animate vanish doc
  have hexpressible : ∀ s ∈ sets, s.Expressible := by
    intro s hs seq hseq step hstep
    cases List.mem_singleton.1 hs
    simp only [List.mem_cons, List.not_mem_nil, or_false] at hseq
    rcases hseq with rfl | rfl
    · simp only [List.mem_cons, List.not_mem_nil, or_false] at hstep
      rcases hstep with rfl | rfl | rfl
      · exact ⟨rfl, by norm_num⟩
      · show (-1 : ℤ).natAbs ≤ 2 ^ 24
        norm_num
      · trivial
    · cases hstep
  have hzero : (Json.Number.natural 0).IsExactly 0 := .natural rfl (by decide) (by decide +kernel)
  have hpath : Step.Writes path (.path 0.5 2 .spline) := by
    have htwo : (Json.Number.natural 2).IsExactly (.ofNat 2) := .natural rfl (by decide +kernel) (by decide +kernel)
    refine ⟨_, .pair "Path" [.float (Scalar.widen 0.5), .natural 2], .cons (.float rfl) (.cons htwo (.zeros ?_))⟩
    decide +kernel
  have hanimate : Step.Writes animate (.animate (-1)) := by
    have hone : (Json.Number.negative 1).IsExactly (.ofInt (-1)) := .negative rfl one_pos (by decide +kernel)
    exact ⟨_, .pair "Animation" [.negative 1, .natural 0, .natural 0, .natural 7],
      .cons hone (.cons hzero (.cons hzero (.more _)))⟩
  have hvanish : Step.Writes vanish .vanish := ⟨_, .single "Delete", .zeros (by decide +kernel)⟩
  have hwrites : Writes doc sets :=
    ⟨_, rfl, .cons ⟨_, ⟨rfl, rfl⟩, .cons ⟨_, rfl, .cons hpath (.cons hanimate (.cons hvanish .nil))⟩
      (.cons ⟨_, rfl, .nil⟩ .nil)⟩ .nil⟩
  have hreads := reads_back hexpressible
  exact ⟨hexpressible, hreads.1, hwrites, hreads.2 doc hwrites⟩

end Document

end MotionScript
