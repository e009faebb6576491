import RS485.Lib.Machine

/-!
# Clients of a machine

A client is a program that asks a machine for things and goes on with the answers: `ask` names
a request and what the client does with each answer to it, `done` ends it.  A machine that
clients run on reads requests together with a *moment*, which is everything about the step that
the client does not choose.

A client has two readings.  Given the moments, one after the other, it has a run: `inputs` are
the inputs it makes the machine read, so that what is known of runs of the machine holds of
runs of clients, and `result` is what it ends with.  For proofs there is `wp`, which asks for
the postcondition whatever the moments are, as long as they satisfy an assumption; `wp_run`
takes it back to runs.  `loop` is the loop of a client, with a bound on the iterations, and
`wp_loop` its rule, of total correctness: a variant keeps the loop from using up the bound.

`together` lets clients take turns on one machine.  Their run is one of the machine, which reads
their `requests`.  If each has a part of the state to itself, what is proved of each alone is true
of all together (`wp_together`).

`result_of_simulation` is for comparing machines.  If one simulates the other, request by
request, no client can tell them apart.
-/

/-- A program that asks requests `ι`, is given answers `ω`, and ends with a result `ρ`. -/
inductive Client (ι ω ρ : Type*)
  | done (r : ρ)
  | ask (i : ι) (next : ω → Client ι ω ρ)

namespace Client

universe u

variable {ι ω ρ υ σ τ ε α β : Type*}

/-- The result of a client that has ended. -/
def outcome : Client ι ω ρ → Option ρ
  | done r => some r
  | ask _ _ => none

theorem eq_done_of_outcome {c : Client ι ω ρ} {r : ρ} (h : c.outcome = some r) : c = done r := by
  cases c with
  | done r' => rw [Option.some.inj h]
  | ask i next => cases h

/-- Run one client, and then another on its result. -/
def bind : Client ι ω ρ → (ρ → Client ι ω υ) → Client ι ω υ
  | done r, f => f r
  | ask i next, f => ask i fun o => bind (next o) f

/-- Run one client, and then another on its result if there is one. -/
def bindSome (c : Client ι ω (Option ρ)) (f : ρ → Client ι ω (Option υ)) :
    Client ι ω (Option υ) :=
  c.bind fun
    | some r => f r
    | none => done none

/-- Repeat `body` until it ends the loop with a result, at most `fuel` times. -/
def loop (body : α → Client ι ω (α ⊕ β)) : ℕ → α → Client ι ω (Option β)
  | 0, _ => done none
  | fuel + 1, a =>
      (body a).bind fun
        | .inl a' => loop body fuel a'
        | .inr b => done (some b)

/-! ## Runs -/

section Runs

variable (m : OutputMachine σ (ι × ε) ω)

/-- The inputs the machine reads, the `n`-th request being asked in the moment `e n`. -/
def inputs : Client ι ω ρ → (ℕ → ε) → σ → List (ι × ε)
  | done _, _, _ => []
  | ask i next, e, s =>
      (i, e 0) :: inputs (next (m.step s (i, e 0)).2) (fun n => e (n + 1)) (m.step s (i, e 0)).1

/-- What the client ends with. -/
def result : Client ι ω ρ → (ℕ → ε) → σ → ρ
  | done r, _, _ => r
  | ask i next, e, s =>
      result (next (m.step s (i, e 0)).2) (fun n => e (n + 1)) (m.step s (i, e 0)).1

/-- The state the client leaves the machine in. -/
def final (c : Client ι ω ρ) (e : ℕ → ε) (s : σ) : σ := m.after s (c.inputs m e s)

@[simp] theorem final_ask (i : ι) (next : ω → Client ι ω ρ) (e : ℕ → ε) (s : σ) :
    final m (ask i next) e s =
      final m (next (m.step s (i, e 0)).2) (fun n => e (n + 1)) (m.step s (i, e 0)).1 := rfl

/-- `A` holds of every request of the run, of the state it is asked in and of its moment. -/
def AlongRun (A : σ → ι → ε → Prop) (c : Client ι ω ρ) (e : ℕ → ε) (s : σ) : Prop :=
  m.Along (fun s x => A s x.1 x.2) s (c.inputs m e s)

instance decidableAlongRun (A : σ → ι → ε → Prop) [hA : ∀ s i x, Decidable (A s i x)]
    (c : Client ι ω ρ) (e : ℕ → ε) (s : σ) : Decidable (AlongRun m A c e s) :=
  have : ∀ s (x : ι × ε), Decidable (A s x.1 x.2) := fun s x => hA s x.1 x.2
  m.decidableAlong (fun s x => A s x.1 x.2) s (c.inputs m e s)

/-- What holds of every request in every moment holds of every run. -/
theorem alongRun_of_forall {A : σ → ι → ε → Prop} {e : ℕ → ε} (h : ∀ s i n, A s i (e n))
    (c : Client ι ω ρ) (s : σ) : AlongRun m A c e s := by
  induction c generalizing e s with
  | done r => trivial
  | ask i next ih => exact ⟨h s i 0, ih _ (fun s i n => h s i (n + 1)) _⟩

end Runs

/-! ## Weakest preconditions -/

section Wp

variable {m : OutputMachine σ (ι × ε) ω} {A B : σ → ι → ε → Prop} {Q R : ρ → σ → Prop} {s : σ}

/-- Whatever the moments are, as long as every request is asked in one that satisfies `A`, the
client ends with a result and a state that satisfy `Q`. -/
def wp (m : OutputMachine σ (ι × ε) ω) (A : σ → ι → ε → Prop) :
    Client ι ω ρ → (ρ → σ → Prop) → σ → Prop
  | done r, Q, s => Q r s
  | ask i next, Q, s =>
      ∀ x, A s i x → wp m A (next (m.step s (i, x)).2) Q (m.step s (i, x)).1

theorem wp_mono {c : Client ι ω ρ} (hQ : ∀ r s, Q r s → R r s) (h : wp m A c Q s) :
    wp m A c R s := by
  induction c generalizing s with
  | done r => exact hQ r s h
  | ask i next ih => exact fun x hx => ih _ (h x hx)

theorem wp_bind {c : Client ι ω ρ} {f : ρ → Client ι ω υ} {Q : υ → σ → Prop} :
    wp m A (c.bind f) Q s ↔ wp m A c (fun r s => wp m A (f r) Q s) s := by
  induction c generalizing s with
  | done r => exact Iff.rfl
  | ask i next ih => exact forall_congr' fun x => forall_congr' fun _ => ih _

theorem wp_bindSome {c : Client ι ω (Option ρ)} {f : ρ → Client ι ω (Option υ)}
    {Q : Option υ → σ → Prop}
    (h : wp m A c (fun r s => ∃ a, r = some a ∧ wp m A (f a) Q s) s) :
    wp m A (c.bindSome f) Q s := by
  refine wp_bind.mpr (wp_mono ?_ h)
  rintro r s' ⟨a, rfl, ha⟩
  exact ha

/-- What is proved under an assumption holds under a stronger one. -/
theorem wp_assume {c : Client ι ω ρ} (hAB : ∀ s i x, B s i x → A s i x) (h : wp m A c Q s) :
    wp m B c Q s := by
  induction c generalizing s with
  | done r => exact h
  | ask i next ih => exact fun x hx => ih _ (h x (hAB s i x hx))

/-- **Adequacy.**  What `wp` promises is true of every run. -/
theorem wp_run {c : Client ι ω ρ} {e : ℕ → ε} (h : wp m A c Q s) (hA : c.AlongRun m A e s) :
    Q (c.result m e s) (c.final m e s) := by
  induction c generalizing e s with
  | done r => exact h
  | ask i next ih => exact ih _ (h (e 0) hA.1) hA.2

/-- **Loop rule.**  An invariant that the body keeps whenever it does not end the loop, and a
variant that it then decreases, bound the iterations: a loop with more fuel ends. -/
theorem wp_loop {body : α → Client ι ω (α ⊕ β)} {Q : β → σ → Prop} (I : α → σ → Prop)
    (v : α → σ → ℕ)
    (hbody : ∀ a s, I a s → wp m A (body a)
      (fun r s' => r.elim (fun a' => I a' s' ∧ v a' s' < v a s) (fun b => Q b s')) s)
    {fuel : ℕ} {a : α} (hI : I a s) (hfuel : v a s < fuel) :
    wp m A (loop body fuel a) (fun r s' => ∃ b, r = some b ∧ Q b s') s := by
  induction fuel generalizing a s with
  | zero => omega
  | succ fuel ih =>
      rw [loop, wp_bind]
      refine wp_mono ?_ (hbody a s hI)
      intro r s' hr
      cases r with
      | inl a' =>
          obtain ⟨hI', hless⟩ : I a' s' ∧ v a' s' < v a s := hr
          exact ih hI' (by omega)
      | inr b => exact ⟨b, rfl, hr⟩

end Wp

/-! ## Clients together -/

section Together

variable {κ γ δ : Type*}

/-- The request that a turn makes, unless the client has ended. -/
def asked (p : γ × (κ → Client ι ω ρ)) (x : κ × ε) : Option (κ × ι × ε) :=
  match p.2 x.1 with
  | done _ => none
  | ask i _ => some (x.1, i, x.2)

theorem asked_of_done {p : γ × (κ → Client ι ω ρ)} {r : ρ} {x : κ × ε}
    (h : p.2 x.1 = done r) : asked p x = none := by
  simp only [asked, h]

theorem asked_of_ask {p : γ × (κ → Client ι ω ρ)} {x : κ × ε} {i : ι} {next : ω → Client ι ω ρ}
    (h : p.2 x.1 = ask i next) : asked p x = some (x.1, i, x.2) := by
  simp only [asked, h]

variable [DecidableEq κ]

/-- Clients that take turns on one machine, whose inputs say whose request they are.  A client
that has ended lets its turn pass. -/
def together (g : OutputMachine γ (κ × ι × ε) ω) :
    OutputMachine (γ × (κ → Client ι ω ρ)) (κ × ε) Unit where
  step p x :=
    match p.2 x.1 with
    | done _ => (p, ())
    | ask i next =>
        let r := g.step p.1 (x.1, i, x.2)
        ((r.1, Function.update p.2 x.1 (next r.2)), ())

variable {g : OutputMachine γ (κ × ι × ε) ω} {p : γ × (κ → Client ι ω ρ)} {B : γ → κ → ε → Prop}
  {xs : List (κ × ε)}

theorem together_step_of_done {r : ρ} {x : κ × ε} (h : p.2 x.1 = done r) :
    ((together g).step p x).1 = p := by
  simp only [together, h]

theorem together_step_of_ask {x : κ × ε} {i : ι} {next : ω → Client ι ω ρ}
    (h : p.2 x.1 = ask i next) :
    ((together g).step p x).1 = ((g.step p.1 (x.1, i, x.2)).1,
      Function.update p.2 x.1 (next (g.step p.1 (x.1, i, x.2)).2)) := by
  simp only [together, h]

/-- The requests that clients make together, in the order in which they are made. -/
def requests (g : OutputMachine γ (κ × ι × ε) ω) (p : γ × (κ → Client ι ω ρ))
    (xs : List (κ × ε)) : List (κ × ι × ε) :=
  (together g).collect (fun p x _ => asked p x) p xs

/-- A run of clients together is a run of the machine, which reads their requests. -/
theorem together_after :
    ((together g).after p xs).1 = g.after p.1 (requests g p xs) := by
  induction xs generalizing p with
  | nil => rfl
  | cons x xs ih =>
      have hrequests : requests g p (x :: xs) =
          (asked p x).toList ++ requests g ((together g).step p x).1 xs := rfl
      rw [OutputMachine.after_cons, ih, hrequests]
      cases hclient : p.2 x.1 with
      | done r =>
          rw [asked_of_done hclient, together_step_of_done hclient]
          rfl
      | ask i next =>
          rw [asked_of_ask hclient, together_step_of_ask hclient]
          rfl

/-- What every request preserves holds at any time. -/
theorem together_invariant {I : γ → Prop} (hstep : ∀ s x, I s → I (g.step s x).1) (hs : I p.1) :
    I ((together g).after p xs).1 := by
  rw [together_after]
  exact OutputMachine.after_invariant (P := fun _ _ => True) (fun s x hI _ => hstep s x hI) hs
    (g.along_of_all (fun _ _ => trivial) p.1 (requests g p xs))

/-- **Each on its own.**  Each client sees a part of the state, and a request is a step of a
machine of its own there, in a moment that `A` admits, while the others' parts stay as they are.
Then what is proved of each client alone is true of the clients together, however their turns
are mixed. -/
theorem wp_together {m : κ → OutputMachine σ (ι × δ) ω} (view : γ → κ → σ)
    {A : κ → σ → ι → δ → Prop} {Q : κ → ρ → σ → Prop}
    (hstep : ∀ s k i x, B s k x → ∃ y, A k (view s k) i y ∧
      (g.step s (k, i, x)).2 = ((m k).step (view s k) (i, y)).2 ∧
      view (g.step s (k, i, x)).1 =
        Function.update (view s) k ((m k).step (view s k) (i, y)).1)
    (h : ∀ k, wp (m k) (A k) (p.2 k) (Q k) (view p.1 k))
    (hB : (together g).Along (fun q x => B q.1 x.1 x.2) p xs) :
    let q := (together g).after p xs
    ∀ k, wp (m k) (A k) (q.2 k) (Q k) (view q.1 k) := by
  refine OutputMachine.after_invariant
    (I := fun q : γ × (κ → Client ι ω ρ) =>
      ∀ k, wp (m k) (A k) (q.2 k) (Q k) (view q.1 k))
    (P := fun q (x : κ × ε) => B q.1 x.1 x.2) ?_ h hB
  rintro q ⟨k, x⟩ hq hx j
  cases hclient : q.2 k with
  | done r =>
      rw [together_step_of_done hclient]
      exact hq j
  | ask i next =>
      obtain ⟨y, hy, hanswer, hview⟩ := hstep q.1 k i x hx
      rw [together_step_of_ask hclient]
      dsimp only
      by_cases hj : j = k
      · -- the client's own turn is a step of its machine
        subst hj
        have hk := hq j
        rw [hclient] at hk
        have hnext := hk y hy
        rw [hview, Function.update_self, Function.update_self, hanswer]
        exact hnext
      · rw [hview, Function.update_of_ne hj, Function.update_of_ne hj]
        exact hq j

end Together

/-! ## Simulation -/

/-- **No client can tell** a machine from one it simulates: if every request that `A` admits is
answered alike in related states, and leads to related states, a run whose requests `A` admits
has the same result on both. -/
theorem result_of_simulation {m : OutputMachine σ (ι × ε) ω} {n : OutputMachine τ (ι × ε) ω}
    {A : τ → ι → ε → Prop} (R : σ → τ → Prop)
    (hstep : ∀ s t i x, R s t → A t i x →
      (m.step s (i, x)).2 = (n.step t (i, x)).2 ∧ R (m.step s (i, x)).1 (n.step t (i, x)).1)
    {c : Client ι ω ρ} {e : ℕ → ε} {s : σ} {t : τ} (hR : R s t) (hA : c.AlongRun n A e t) :
    c.result m e s = c.result n e t ∧ R (c.final m e s) (c.final n e t) := by
  induction c generalizing e s t with
  | done r => exact ⟨rfl, hR⟩
  | ask i next ih =>
      obtain ⟨hanswer, hnext⟩ := hstep s t i (e 0) hR hA.1
      have hrest := ih _ hnext hA.2
      rw [← hanswer] at hrest
      rw [final_ask, final_ask, result, result, ← hanswer]
      exact hrest

end Client
