import Mathlib.Data.Finset.Basic
import Mathlib.Data.List.Nodup
import Mathlib.Logic.Function.Basic

/-!
# Pointers that may own, and who owns what

`FlaggedPtr` is a smart pointer whose deleter carries a flag: the pointee is deleted when the
pointer lets go of it only if the flag is set.  The operations are those of a standard unique
pointer with a stateful deleter.  Move assignment lets go of the old pointee *with the old
flag* and takes over the pointee and the flag of the source.

`Ledger` is what such pointers are for.  Resources are issued once and then held by at most
one holder until they are returned; `Ledger.Balanced` says that no resource is held twice,
none is held after its return or returned twice, and every resource that was issued is held
or returned.  `issue`, `transfer` and `drop` keep a ledger balanced.
-/

/-- A pointer to an `α` or to nothing, with a deleter that deletes only if `owned`. -/
structure FlaggedPtr (α : Type*) where
  get : Option α
  owned : Bool
  deriving DecidableEq, Repr

namespace FlaggedPtr

variable {α : Type*}

/-- What the deleter deletes when the pointer lets go of its pointee. -/
def deleted (p : FlaggedPtr α) : List α :=
  if p.owned then p.get.toList else []

/-- The pointer after its pointee has been taken out of it: the deleter stays. -/
def released (p : FlaggedPtr α) : FlaggedPtr α :=
  { p with get := none }

/-- Move assignment `dst = std::move(src)`: the new target, what is left of the source, and
what is deleted on the way. -/
def assign (dst src : FlaggedPtr α) : FlaggedPtr α × FlaggedPtr α × List α :=
  (src, src.released, dst.deleted)

@[simp] theorem deleted_released (p : FlaggedPtr α) : p.released.deleted = [] := by
  cases h : p.owned <;> simp [released, deleted, h]

@[simp] theorem assign_fst (dst src : FlaggedPtr α) : (dst.assign src).1 = src := rfl

@[simp] theorem assign_source (dst src : FlaggedPtr α) : (dst.assign src).2.1 = src.released :=
  rfl

@[simp] theorem assign_deleted (dst src : FlaggedPtr α) : (dst.assign src).2.2 = dst.deleted :=
  rfl

end FlaggedPtr

/-- Which resource each holder holds, how many have been issued (they are numbered from zero
in the order of issue), and which have been returned, in order. -/
structure Ledger (H : Type*) where
  holds : H → Option ℕ
  issued : ℕ
  returned : List ℕ

namespace Ledger

variable {H : Type*}

structure Balanced (l : Ledger H) : Prop where
  held_issued : ∀ h r, l.holds h = some r → r < l.issued
  held_once : ∀ h h' r, l.holds h = some r → l.holds h' = some r → h = h'
  held_not_returned : ∀ h r, l.holds h = some r → r ∉ l.returned
  returned_once : l.returned.Nodup
  returned_issued : ∀ r ∈ l.returned, r < l.issued
  accounted : ∀ r < l.issued, r ∈ l.returned ∨ ∃ h, l.holds h = some r

/-- Nothing issued. -/
def empty : Ledger H := ⟨fun _ => none, 0, []⟩

theorem balanced_empty : (empty : Ledger H).Balanced where
  held_issued := by simp [empty]
  held_once := by simp [empty]
  held_not_returned := by simp [empty]
  returned_once := List.nodup_nil
  returned_issued := by simp [empty]
  accounted := by simp [empty]

variable [DecidableEq H]

/-- The holder `h` gives up what it holds. -/
def drop (l : Ledger H) (h : H) : Ledger H :=
  ⟨Function.update l.holds h none, l.issued, l.returned ++ (l.holds h).toList⟩

/-- The holder `h` gives up what it holds and gets a new resource. -/
def issue (l : Ledger H) (h : H) : Ledger H :=
  ⟨Function.update l.holds h (some l.issued), l.issued + 1, l.returned ++ (l.holds h).toList⟩

/-- The holder `dst` gives up what it holds and takes over what `src` holds. -/
def transfer (l : Ledger H) (src dst : H) : Ledger H :=
  ⟨Function.update (Function.update l.holds src none) dst (l.holds src), l.issued,
    l.returned ++ (l.holds dst).toList⟩

/-- What is known of the holders after one of the operations: apart from resources issued by
it, each one holds what some holder held before, none of them what `dst` gave up. -/
private theorem balanced_of_rearranged {l : Ledger H} (hl : l.Balanced) {dst : H}
    {holds : H → Option ℕ} (origin : H → H)
    (hholds : ∀ h r, holds h = some r → l.holds (origin h) = some r ∧ origin h ≠ dst)
    (horigin : ∀ h h' r, holds h = some r → holds h' = some r → origin h = origin h' → h = h')
    (hkept : ∀ h r, l.holds h = some r → h ≠ dst → ∃ h', holds h' = some r) :
    (⟨holds, l.issued, l.returned ++ (l.holds dst).toList⟩ : Ledger H).Balanced where
  held_issued h r hr := hl.held_issued _ r (hholds h r hr).1
  held_once h h' r hr hr' :=
    horigin h h' r hr hr' (hl.held_once _ _ r (hholds h r hr).1 (hholds h' r hr').1)
  held_not_returned h r hr := by
    obtain ⟨hbefore, hne⟩ := hholds h r hr
    simp only [List.mem_append, Option.mem_toList, not_or]
    exact ⟨hl.held_not_returned _ r hbefore,
      fun hdst => hne (hl.held_once _ _ r hbefore hdst)⟩
  returned_once := by
    refine List.nodup_append.mpr ⟨hl.returned_once, ?_, ?_⟩
    · cases l.holds dst <;> simp
    · intro r hr r' hr' heq
      subst heq
      exact hl.held_not_returned dst r (by simpa using hr') hr
  returned_issued r hr := by
    rcases List.mem_append.mp hr with hr | hr
    · exact hl.returned_issued r hr
    · exact hl.held_issued dst r (by simpa using hr)
  accounted r hr := by
    simp only [List.mem_append, Option.mem_toList]
    rcases hl.accounted r hr with hreturned | ⟨h, hh⟩
    · exact Or.inl (Or.inl hreturned)
    · by_cases hdst : h = dst
      · exact Or.inl (Or.inr (hdst ▸ hh))
      · exact Or.inr (hkept h r hh hdst)

theorem Balanced.drop {l : Ledger H} (hl : l.Balanced) (h : H) : (l.drop h).Balanced := by
  refine balanced_of_rearranged hl id ?_ (fun _ _ _ _ _ heq => heq) ?_
  · intro k r hk
    by_cases hkh : k = h
    · subst hkh; simp at hk
    · exact ⟨by simpa [hkh] using hk, hkh⟩
  · intro k r hk hkh
    exact ⟨k, by simpa [hkh] using hk⟩

theorem Balanced.transfer {l : Ledger H} (hl : l.Balanced) {src dst : H} (hne : src ≠ dst) :
    (l.transfer src dst).Balanced := by
  refine balanced_of_rearranged hl (fun h => if h = dst then src else h) ?_ ?_ ?_
  · intro k r hk
    by_cases hkd : k = dst
    · subst hkd
      exact ⟨by simpa using hk, by simpa using hne⟩
    · by_cases hks : k = src
      · subst hks
        simp [Function.update_of_ne hkd] at hk
      · simpa [hkd, hks] using hk
  · intro k k' r hk hk' heq
    by_cases hkd : k = dst <;> by_cases hkd' : k' = dst
    · rw [hkd, hkd']
    · have hks : k' = src := by simpa [hkd, hkd'] using heq.symm
      subst hks
      simp [Function.update_of_ne hkd'] at hk'
    · have hks : k = src := by simpa [hkd, hkd'] using heq
      subst hks
      simp [Function.update_of_ne hkd] at hk
    · simpa [hkd, hkd'] using heq
  · intro k r hk hkd
    by_cases hks : k = src
    · exact ⟨dst, by simpa [hks] using hk⟩
    · exact ⟨k, by simpa [hkd, hks] using hk⟩

theorem Balanced.issue {l : Ledger H} (hl : l.Balanced) (h : H) : (l.issue h).Balanced := by
  have hdrop := hl.drop h
  have hheld : ∀ k r, (l.issue h).holds k = some r →
      (k = h ∧ r = l.issued) ∨ (k ≠ h ∧ (l.drop h).holds k = some r) := by
    intro k r hk
    by_cases hkh : k = h
    · subst hkh
      exact Or.inl ⟨rfl, by simpa [Ledger.issue, eq_comm] using hk⟩
    · exact Or.inr ⟨hkh, by simpa [Ledger.issue, Ledger.drop, hkh] using hk⟩
  refine ⟨?_, ?_, ?_, hdrop.returned_once, ?_, ?_⟩
  · intro k r hk
    show r < l.issued + 1
    rcases hheld k r hk with ⟨-, rfl⟩ | ⟨-, hk⟩
    · exact Nat.lt_succ_self _
    · exact Nat.lt_succ_of_lt (hdrop.held_issued k r hk)
  · intro k k' r hk hk'
    rcases hheld k r hk with ⟨rfl, rfl⟩ | ⟨-, hk⟩ <;>
      rcases hheld k' _ hk' with ⟨rfl, hr⟩ | ⟨-, hk'⟩
    · rfl
    · exact absurd (hdrop.held_issued _ _ hk') (lt_irrefl _)
    · exact absurd (hdrop.held_issued _ _ hk) (by rw [hr]; exact lt_irrefl _)
    · exact hdrop.held_once _ _ r hk hk'
  · intro k r hk hr
    rcases hheld k r hk with ⟨-, rfl⟩ | ⟨-, hk⟩
    · exact lt_irrefl _ (hdrop.returned_issued _ hr)
    · exact hdrop.held_not_returned k r hk hr
  · intro r hr
    exact Nat.lt_succ_of_lt (hdrop.returned_issued r hr)
  · intro r hr
    rcases Nat.lt_succ_iff_lt_or_eq.mp hr with hr | rfl
    · rcases hdrop.accounted r hr with hreturned | ⟨k, hk⟩
      · exact Or.inl hreturned
      · have hkh : k ≠ h := by
          rintro rfl
          simp [Ledger.drop] at hk
        exact Or.inr ⟨k, by simpa [Ledger.issue, Ledger.drop, hkh] using hk⟩
    · exact Or.inr ⟨h, by simp [Ledger.issue]⟩

end Ledger
