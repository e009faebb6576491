import RS485.Lib.Machine

/-!
# First-in first-out queues

What a client of a queue asks, what a queue answers, and what that does to its contents.

A queue is a list, oldest element first.  While a request is served, elements may still
arrive at the back, and only a prefix of the contents need be *in reach*: an element behind
it counts as part of the queue but this request cannot get at it.  With enough in reach
`serve` is the textbook queue (`serve_of_suffices`); the point of the bound is that a queue
served from behind an unreliable source is still a queue, with a shorter reach.

`conserved` is the law the requests are there for: over any run without `clear`, what was in
the queue at first and what arrived is, in order, what was taken out and what is left.
-/

namespace Fifo

variable {α : Type*}

/-- What a client asks of a queue. -/
inductive Request
  | size
  | front
  | pop
  | take (n : ℕ)
  | clear
  | idle
  deriving DecidableEq, Repr

/-- What the queue answers. -/
inductive Reply (α : Type*)
  | size (n : ℕ)
  | item (x : Option α)
  | items (xs : List α)
  | done
  deriving DecidableEq, Repr

/-- Serve a request on the queue `q` of which the first `reach` elements are in reach. -/
def serve (q : List α) (reach : ℕ) : Request → Reply α × List α
  | .size => (.size (min reach q.length), q)
  | .front => (.item (q.take reach).head?, q)
  | .pop => (.item (q.take reach).head?, q.drop (min reach 1))
  | .take n => (.items (q.take (min n reach)), q.drop (min n reach))
  | .clear => (.done, q.drop reach)
  | .idle => (.done, q)

/-- What a reply hands out for good. -/
def taken : Request → Reply α → List α
  | .pop, .item x => x.toList
  | .take _, .items xs => xs
  | _, _ => []

/-! ### With enough in reach it is the plain queue -/

/-- As much is in reach as the request can use. -/
def Suffices (q : List α) (reach : ℕ) : Request → Prop
  | .size | .clear => q.length ≤ reach
  | .front | .pop => 0 < reach
  | .take n => n ≤ reach
  | .idle => True

/-- The textbook queue. -/
def servePlain (q : List α) : Request → Reply α × List α
  | .size => (.size q.length, q)
  | .front => (.item q.head?, q)
  | .pop => (.item q.head?, q.tail)
  | .take n => (.items (q.take n), q.drop n)
  | .clear => (.done, [])
  | .idle => (.done, q)

theorem serve_of_suffices {q : List α} {reach : ℕ} {request : Request}
    (h : Suffices q reach request) : serve q reach request = servePlain q request := by
  cases request with
  | size => simp only [serve, servePlain, Nat.min_eq_right h]
  | front =>
      obtain ⟨k, rfl⟩ := Nat.exists_eq_succ_of_ne_zero (Nat.ne_of_gt h)
      cases q <;> simp [serve, servePlain]
  | pop =>
      obtain ⟨k, rfl⟩ := Nat.exists_eq_succ_of_ne_zero (Nat.ne_of_gt h)
      cases q <;> simp [serve, servePlain]
  | take n => simp only [serve, servePlain, Nat.min_eq_left h]
  | clear => simpa [serve, servePlain, Suffices] using h
  | idle => rfl

/-! ### What is taken and what is left -/

/-- Serving a request other than `clear` splits the queue into what is handed out and what
is left. -/
theorem taken_append_serve (q : List α) (reach : ℕ) {request : Request}
    (hclear : request ≠ .clear) :
    taken request (serve q reach request).1 ++ (serve q reach request).2 = q := by
  cases request with
  | size => rfl
  | front => rfl
  | pop =>
      cases reach with
      | zero => simp [serve, taken]
      | succ k => cases q <;> simp [serve, taken]
  | take n => simp [serve, taken]
  | clear => exact absurd rfl hclear
  | idle => rfl

/-! ## Runs -/

/-- One step of a queue's life: what arrives, how much is in reach, and what is asked. -/
structure Step (α : Type*) where
  arrived : List α
  reach : ℕ
  request : Request

/-- The queue as a machine. -/
def machine (α : Type*) : OutputMachine (List α) (Step α) (Reply α) where
  step q s :=
    ((serve (q ++ s.arrived) s.reach s.request).2, (serve (q ++ s.arrived) s.reach s.request).1)

@[simp] theorem machine_step (q : List α) (s : Step α) :
    (machine α).step q s =
      ((serve (q ++ s.arrived) s.reach s.request).2,
        (serve (q ++ s.arrived) s.reach s.request).1) := rfl

/-- Everything taken out over a run, in order. -/
def takenAlong (q : List α) (steps : List (Step α)) : List α :=
  ((machine α).collect (fun _ s r => some (taken s.request r)) q steps).flatten

/-- **Conservation.**  Over a run without `clear` no element is lost, duplicated or
reordered. -/
theorem conserved (q : List α) (steps : List (Step α))
    (hclear : ∀ s ∈ steps, s.request ≠ .clear) :
    q ++ (steps.map Step.arrived).flatten =
      takenAlong q steps ++ (machine α).after q steps := by
  induction steps generalizing q with
  | nil => simp [takenAlong]
  | cons s steps ih =>
      have hstep := taken_append_serve (q ++ s.arrived) s.reach
        (hclear s (List.mem_cons_self ..))
      have hrest := ih (serve (q ++ s.arrived) s.reach s.request).2
        fun t ht => hclear t (List.mem_cons_of_mem _ ht)
      simp only [takenAlong, List.map_cons, List.flatten_cons, OutputMachine.collect_cons,
        Option.toList_some, List.singleton_append, OutputMachine.after_cons, machine_step,
        List.append_assoc] at hrest ⊢
      rw [← hrest, ← List.append_assoc, ← List.append_assoc, hstep]

end Fifo
