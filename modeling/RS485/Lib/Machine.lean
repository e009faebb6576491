import Mathlib.Data.List.Basic
import Mathlib.Tactic.Common

/-!
# Machines with outputs

A deterministic machine that reads one input at a time and answers each with one output.
Everything that is said about a *run* of a program is said through three notions.

* `after` and `outputs` are the state a list of inputs leads to and the answers given on
  the way.
* `Along P` says that `P` holds at every step of a run, of the state before the step and
  the input read there.  It states both what is assumed of every step and what is proved
  about it; `along_of_invariant` is the rule that gets the second from the first.
* `collect f` lists what an observer `f` sees of a run, step by step.

`withHistory` adds a history variable, and `after_of_simulation` turns a simulation of steps
into one of runs.  The two comparison rules are about two runs.  In `collect_eq_of_unwinding`
they are runs of one machine that differ only in inputs the observer does not see.  In
`outputs_filterMap_eq_collect` one machine reads what is left of the other's inputs after
some of them are erased.
-/

/-- A deterministic machine with states `σ`, inputs `ι` and outputs `ω`. -/
structure OutputMachine (σ ι ω : Type*) where
  step : σ → ι → σ × ω

namespace OutputMachine

variable {σ τ ι κ ω γ : Type*}

/-- The state after reading `is` from `s`. -/
def after (m : OutputMachine σ ι ω) : σ → List ι → σ
  | s, [] => s
  | s, i :: is => after m (m.step s i).1 is

/-- The outputs given while reading `is` from `s`. -/
def outputs (m : OutputMachine σ ι ω) : σ → List ι → List ω
  | _, [] => []
  | s, i :: is => (m.step s i).2 :: outputs m (m.step s i).1 is

/-- `P` holds at every step of the run from `s`. -/
def Along (m : OutputMachine σ ι ω) (P : σ → ι → Prop) : σ → List ι → Prop
  | _, [] => True
  | s, i :: is => P s i ∧ Along m P (m.step s i).1 is

/-- What holds along a run can be checked by running. -/
instance decidableAlong (m : OutputMachine σ ι ω) (P : σ → ι → Prop)
    [∀ s i, Decidable (P s i)] : ∀ s is, Decidable (m.Along P s is)
  | _, [] => inferInstanceAs (Decidable True)
  | s, i :: is =>
      have := decidableAlong m P (m.step s i).1 is
      inferInstanceAs (Decidable (P s i ∧ m.Along P (m.step s i).1 is))

/-- What the observer `f` sees of the run from `s`: at each step it is shown the state
before it, the input and the output, and notes something or nothing. -/
def collect (m : OutputMachine σ ι ω) (f : σ → ι → ω → Option κ) : σ → List ι → List κ
  | _, [] => []
  | s, i :: is => (f s i (m.step s i).2).toList ++ collect m f (m.step s i).1 is

section Basic

variable (m : OutputMachine σ ι ω)

@[simp] theorem after_nil (s : σ) : m.after s [] = s := rfl

@[simp] theorem after_cons (s : σ) (i : ι) (is : List ι) :
    m.after s (i :: is) = m.after (m.step s i).1 is := rfl

@[simp] theorem outputs_nil (s : σ) : m.outputs s [] = [] := rfl

@[simp] theorem outputs_cons (s : σ) (i : ι) (is : List ι) :
    m.outputs s (i :: is) = (m.step s i).2 :: m.outputs (m.step s i).1 is := rfl

@[simp] theorem along_nil (P : σ → ι → Prop) (s : σ) : m.Along P s [] := trivial

@[simp] theorem along_cons (P : σ → ι → Prop) (s : σ) (i : ι) (is : List ι) :
    m.Along P s (i :: is) ↔ P s i ∧ m.Along P (m.step s i).1 is := Iff.rfl

@[simp] theorem collect_nil (f : σ → ι → ω → Option κ) (s : σ) : m.collect f s [] = [] := rfl

@[simp] theorem collect_cons (f : σ → ι → ω → Option κ) (s : σ) (i : ι) (is : List ι) :
    m.collect f s (i :: is) =
      (f s i (m.step s i).2).toList ++ m.collect f (m.step s i).1 is := rfl

/-- A condition on the inputs alone holds along every run that reads such inputs. -/
theorem along_of_forall {P : ι → Prop} {is : List ι} (h : ∀ i ∈ is, P i) (s : σ) :
    m.Along (fun _ i => P i) s is := by
  induction is generalizing s with
  | nil => trivial
  | cons i is ih =>
      exact ⟨h i (List.mem_cons_self ..), ih (fun j hj => h j (List.mem_cons_of_mem _ hj)) _⟩

/-- What holds of every step whatsoever holds along every run. -/
theorem along_of_all {P : σ → ι → Prop} (h : ∀ s i, P s i) (s : σ) (is : List ι) :
    m.Along P s is := by
  induction is generalizing s with
  | nil => trivial
  | cons i is ih => exact ⟨h s i, ih _⟩

end Basic

section Invariant

variable {m : OutputMachine σ ι ω} {I : σ → Prop} {P Q : σ → ι → Prop}

theorem Along.mono (h : ∀ s i, P s i → Q s i) {s : σ} {is : List ι} (hP : m.Along P s is) :
    m.Along Q s is := by
  induction is generalizing s with
  | nil => trivial
  | cons i is ih => exact ⟨h s i hP.1, ih hP.2⟩

/-- What holds along a run holds of its last step. -/
theorem Along.last {s : σ} {is : List ι} {i : ι} (hP : m.Along P s (is ++ [i])) :
    P (m.after s is) i := by
  induction is generalizing s with
  | nil => exact hP.1
  | cons j is ih => exact ih hP.2

theorem Along.and {s : σ} {is : List ι} (hP : m.Along P s is) (hQ : m.Along Q s is) :
    m.Along (fun s i => P s i ∧ Q s i) s is := by
  induction is generalizing s with
  | nil => trivial
  | cons i is ih => exact ⟨⟨hP.1, hQ.1⟩, ih hP.2 hQ.2⟩

/-- What holds along a run for each `j` alone holds there for all of them. -/
theorem Along.all {J : Sort*} {A : J → σ → ι → Prop} {s : σ} {is : List ι}
    (hA : ∀ j, m.Along (A j) s is) : m.Along (fun s i => ∀ j, A j s i) s is := by
  induction is generalizing s with
  | nil => trivial
  | cons i is ih => exact ⟨fun j => (hA j).1, ih fun j => (hA j).2⟩

/-- **Invariant rule.**  What one step preserves under the assumption `P`, a run whose
steps all satisfy `P` preserves. -/
theorem after_invariant (hstep : ∀ s i, I s → P s i → I (m.step s i).1) {s : σ} {is : List ι}
    (hs : I s) (hP : m.Along P s is) : I (m.after s is) := by
  induction is generalizing s with
  | nil => exact hs
  | cons i is ih => exact ih (hstep s i hs hP.1) hP.2

/-- **Step rule.**  What every step from a state of the invariant satisfies, every step of a
run satisfies. -/
theorem along_of_invariant (hstep : ∀ s i, I s → P s i → I (m.step s i).1)
    (hprop : ∀ s i, I s → P s i → Q s i) {s : σ} {is : List ι}
    (hs : I s) (hP : m.Along P s is) : m.Along Q s is := by
  induction is generalizing s with
  | nil => trivial
  | cons i is ih => exact ⟨hprop s i hs hP.1, ih (hstep s i hs hP.1) hP.2⟩

end Invariant

/-! ## History variables -/

/-- The machine that also keeps a history variable, updated after every step from the state
before it, the input, the state after it and the output. -/
def withHistory (m : OutputMachine σ ι ω) (update : γ → σ → ι → σ → ω → γ) :
    OutputMachine (σ × γ) ι ω where
  step p i :=
    (((m.step p.1 i).1, update p.2 p.1 i (m.step p.1 i).1 (m.step p.1 i).2), (m.step p.1 i).2)

section History

variable (m : OutputMachine σ ι ω) (update : γ → σ → ι → σ → ω → γ)

@[simp] theorem withHistory_step (p : σ × γ) (i : ι) :
    (m.withHistory update).step p i =
      (((m.step p.1 i).1, update p.2 p.1 i (m.step p.1 i).1 (m.step p.1 i).2),
        (m.step p.1 i).2) := rfl

/-- A history variable does not disturb the run it watches. -/
theorem after_withHistory_fst (p : σ × γ) (is : List ι) :
    ((m.withHistory update).after p is).1 = m.after p.1 is := by
  induction is generalizing p with
  | nil => rfl
  | cons i is ih => exact ih _

theorem along_withHistory_fst (P : σ → ι → Prop) (p : σ × γ) (is : List ι) :
    (m.withHistory update).Along (fun q i => P q.1 i) p is ↔ m.Along P p.1 is := by
  induction is generalizing p with
  | nil => exact Iff.rfl
  | cons i is ih => exact and_congr Iff.rfl (ih _)

theorem collect_withHistory_fst (f : σ → ι → ω → Option κ) (p : σ × γ) (is : List ι) :
    (m.withHistory update).collect (fun q i o => f q.1 i o) p is = m.collect f p.1 is := by
  induction is generalizing p with
  | nil => rfl
  | cons i is ih => exact congrArg _ (ih _)

/-- A history variable that collects what the outputs carry ends up with what all of them
carry. -/
theorem after_withHistory_append (f : ω → List κ) (s : σ) (l : List κ) (is : List ι) :
    ((m.withHistory fun l _ _ _ o => l ++ f o).after (s, l) is).2 =
      l ++ (m.outputs s is).flatMap f := by
  induction is generalizing s l with
  | nil => simp
  | cons i is ih => simp [ih]

end History

/-- **Invariant rule for what has been noted.**  What one step preserves of the notes and the
state, the step's note being added, a run preserves. -/
theorem after_collect_invariant {m : OutputMachine σ ι ω} {P : σ → ι → Prop}
    (f : σ → ι → ω → Option κ) {I : List κ → σ → Prop}
    (hstep : ∀ l s i, I l s → P s i → I (l ++ (f s i (m.step s i).2).toList) (m.step s i).1)
    {l : List κ} {s : σ} {is : List ι} (h : I l s) (hP : m.Along P s is) :
    I (l ++ m.collect f s is) (m.after s is) := by
  induction is generalizing l s with
  | nil => simpa using h
  | cons i is ih =>
      rw [collect_cons, ← List.append_assoc]
      exact ih (hstep l s i h hP.1) hP.2

/-! ## Simulation -/

section Simulation

variable {ι' ω' : Type*} {m : OutputMachine σ ι ω} {n : OutputMachine τ ι' ω'} {abs : σ → τ}
  {tr : σ → ι → ι'} (hstep : ∀ s i, (n.step (abs s) (tr s i)).1 = abs (m.step s i).1)
include hstep

/-- If one step of `m` is one step of `n` on translated inputs, so is a run. -/
theorem after_of_simulation (s : σ) (is : List ι) :
    n.after (abs s) (m.collect (fun s i _ => some (tr s i)) s is) = abs (m.after s is) := by
  induction is generalizing s with
  | nil => rfl
  | cons i is ih => simp [hstep, ih]

/-- What is seen of the run of `n` can be read off the run of `m`. -/
theorem collect_of_simulation (f : τ → ι' → ω' → Option κ) (s : σ) (is : List ι) :
    n.collect f (abs s) (m.collect (fun s i _ => some (tr s i)) s is) =
      m.collect (fun s i _ => f (abs s) (tr s i) (n.step (abs s) (tr s i)).2) s is := by
  induction is generalizing s with
  | nil => rfl
  | cons i is ih => simp [hstep, ih]

end Simulation

/-- **Refinement.**  If in the states of an invariant a step of `m` is one of `n` on the state
that `abs` makes of it, with the same output, then `n` gives the outputs of every run of `m`. -/
theorem outputs_of_refinement {m : OutputMachine σ ι ω} {n : OutputMachine τ ι ω} (abs : σ → τ)
    {I : σ → Prop} {P : σ → ι → Prop} (hinvariant : ∀ s i, I s → P s i → I (m.step s i).1)
    (hstep : ∀ s i, I s → P s i → n.step (abs s) i = (abs (m.step s i).1, (m.step s i).2))
    {s : σ} {is : List ι} (hs : I s) (hP : m.Along P s is) :
    n.outputs (abs s) is = m.outputs s is ∧ n.after (abs s) is = abs (m.after s is) := by
  induction is generalizing s with
  | nil => exact ⟨rfl, rfl⟩
  | cons i is ih =>
      obtain ⟨hout, hafter⟩ := ih (hinvariant s i hs hP.1) hP.2
      simp only [outputs_cons, after_cons, hstep s i hs hP.1]
      exact ⟨by rw [hout], hafter⟩

/-- What an observer has noted has been noted at some step. -/
theorem forall_mem_collect {m : OutputMachine σ ι ω} {f : σ → ι → ω → Option κ} {P : κ → Prop}
    {s : σ} {is : List ι} (h : m.Along (fun s i => ∀ x ∈ f s i (m.step s i).2, P x) s is) :
    ∀ x ∈ m.collect f s is, P x := by
  induction is generalizing s with
  | nil => simp
  | cons i is ih =>
      intro x hx
      rcases List.mem_append.mp hx with hx | hx
      · exact h.1 x (by simpa using hx)
      · exact ih h.2 x hx

/-- Observers that agree at every step see the same. -/
theorem collect_congr {m : OutputMachine σ ι ω} {f g : σ → ι → ω → Option κ} {s : σ}
    {is : List ι} (h : m.Along (fun s i => f s i (m.step s i).2 = g s i (m.step s i).2) s is) :
    m.collect f s is = m.collect g s is := by
  induction is generalizing s with
  | nil => rfl
  | cons i is ih => rw [collect_cons, collect_cons, h.1, ih h.2]

/-- What an observer of inputs and outputs sees is up to the outputs. -/
theorem collect_eq_of_outputs_eq {m : OutputMachine σ ι ω} {n : OutputMachine τ ι ω}
    (f : ι → ω → Option κ) {s : σ} {t : τ} {is : List ι}
    (h : m.outputs s is = n.outputs t is) :
    m.collect (fun _ i o => f i o) s is = n.collect (fun _ i o => f i o) t is := by
  induction is generalizing s t with
  | nil => rfl
  | cons i is ih =>
      obtain ⟨hhead, htail⟩ := List.cons.inj h
      rw [collect_cons, collect_cons, hhead, ih htail]

/-! ## Comparing two runs -/

/-- **Unwinding.**  Two runs of `m` read the same visible inputs and any hidden ones in
between.  A relation that hidden inputs preserve on either side, and that a visible input
preserves whenever the labels of the two steps agree, makes the observer see the same in
both. -/
theorem collect_eq_of_unwinding {ν : Type*} {m : OutputMachine σ ι ω} (visible : ι → Bool)
    (label : σ → ι → Option ν) (observe : ι → ω → κ) (R : σ → σ → Prop)
    (hleft : ∀ s t i, visible i = false → R s t → R (m.step s i).1 t)
    (hright : ∀ s t i, visible i = false → R s t → R s (m.step t i).1)
    (hvisible : ∀ s t i, visible i = true → R s t → (label s i).isSome = (label t i).isSome ∧
      (label s i = label t i →
        observe i (m.step s i).2 = observe i (m.step t i).2 ∧
          R (m.step s i).1 (m.step t i).1)) :
    ∀ (is js : List ι) (s t : σ), R s t → is.filter visible = js.filter visible →
      m.collect (fun s i _ => if visible i then label s i else none) s is =
        m.collect (fun s i _ => if visible i then label s i else none) t js →
      m.collect (fun _ i o => if visible i then some (observe i o) else none) s is =
        m.collect (fun _ i o => if visible i then some (observe i o) else none) t js := by
  intro is
  induction is with
  | nil =>
      intro js
      induction js with
      | nil => intros; rfl
      | cons j js ihj =>
          intro s t hR hfilter hlabel
          cases hj : visible j with
          | true => simp [hj] at hfilter
          | false =>
              simp only [List.filter_cons, hj, collect_cons, Option.toList_none,
                List.nil_append, Bool.false_eq_true, if_false] at hfilter hlabel ⊢
              exact ihj s _ (hright s t j hj hR) hfilter hlabel
  | cons i is ih =>
      intro js s t hR hfilter hlabel
      cases hi : visible i with
      | false =>
          simp only [List.filter_cons, hi, collect_cons, Option.toList_none,
            List.nil_append, Bool.false_eq_true, if_false] at hfilter hlabel ⊢
          exact ih js _ t (hleft s t i hi hR) hfilter hlabel
      | true =>
          induction js generalizing t with
          | nil => simp [hi] at hfilter
          | cons j js ihj =>
              cases hj : visible j with
              | false =>
                  simp only [List.filter_cons, hj, collect_cons, Option.toList_none,
                    List.nil_append, Bool.false_eq_true, if_false] at hfilter hlabel ⊢
                  simp only [collect_cons] at ihj
                  exact ihj _ (hright s t j hj hR) (by simpa [List.filter_cons] using hfilter)
                    hlabel
              | true =>
                  simp only [List.filter_cons, hi, hj, if_true, List.cons.injEq] at hfilter
                  obtain ⟨rfl, hfilter⟩ := hfilter
                  obtain ⟨hsome, hstep⟩ := hvisible s t i hi hR
                  simp only [collect_cons, hi, if_true] at hlabel ⊢
                  obtain ⟨hhead, htail⟩ := List.append_inj hlabel (by
                    cases h : label s i <;> cases h' : label t i <;> simp_all)
                  have hlab : label s i = label t i := by
                    cases h : label s i <;> cases h' : label t i <;> simp_all
                  obtain ⟨hobs, hnext⟩ := hstep hlab
                  rw [hobs, ih js _ _ hnext hfilter htail]

/-- **Erasure.**  The machine `n` reads inputs of which `erase` keeps some, translated for
`m`, and drops the others.  If a relation between the states survives dropped inputs on the
side of `n` and kept ones on both sides, with equal outputs, then `m` on what is kept gives
the outputs that `n` gives there, and the relation holds at the end. -/
theorem outputs_filterMap_eq_collect {ι' : Type*} {m : OutputMachine σ ι ω}
    {n : OutputMachine τ ι' ω} (erase : ι' → Option ι) (R : σ → τ → Prop) (P : τ → ι' → Prop)
    (hdropped : ∀ s t j, erase j = none → P t j → R s t → R s (n.step t j).1)
    (hkept : ∀ s t j i, erase j = some i → P t j → R s t →
      (m.step s i).2 = (n.step t j).2 ∧ R (m.step s i).1 (n.step t j).1) :
    ∀ (js : List ι') (s : σ) (t : τ), R s t → n.Along P t js →
      m.outputs s (js.filterMap erase) =
          n.collect (fun _ j o => (erase j).map fun _ => o) t js ∧
        R (m.after s (js.filterMap erase)) (n.after t js) := by
  intro js
  induction js with
  | nil => intro s t hR _; exact ⟨rfl, hR⟩
  | cons j js ih =>
      intro s t hR hP
      cases herase : erase j with
      | none =>
          obtain ⟨hout, hend⟩ := ih s _ (hdropped s t j herase hP.1 hR) hP.2
          exact ⟨by simp [herase, hout], by simpa [List.filterMap_cons, herase] using hend⟩
      | some i =>
          obtain ⟨hhead, hnext⟩ := hkept s t j i herase hP.1 hR
          obtain ⟨hout, hend⟩ := ih _ _ hnext hP.2
          exact ⟨by simp [herase, hhead, hout],
            by simpa [List.filterMap_cons, herase] using hend⟩

end OutputMachine
