import Mathlib.Data.List.Chain
/-!
# RecordSieve.Proofs.Text.Neighbours

Lists whose neighbours are all related, and what may be replaced in them. `Keeps R as bs` says
that `bs` may stand where `as` stands at the end of such a list: its own neighbours are related
if those of `as` are, and it may follow whatever `as` may follow. Replacements are then made
from right to left, one stretch at a time.
-/

namespace RecordSieve
namespace Text

variable {α : Type} {R : α → α → Prop} {as bs cs : List α}

/-- An item that may stand beside any other. -/
def Neutral (R : α → α → Prop) (a : α) : Prop := ∀ b, R a b ∧ R b a

/-- Some items may stand for others at the end of a list. -/
structure Keeps (R : α → α → Prop) (as bs : List α) : Prop where
  isChain : as.IsChain R → bs.IsChain R
  head : ∀ p, (∀ a ∈ as.head?, R p a) → ∀ b ∈ bs.head?, R p b

theorem isChain_neutral {xs : List α} (hxs : ∀ x ∈ xs, Neutral R x) (h : as.IsChain R) :
    (xs ++ as).IsChain R := by
  induction xs with
  | nil => exact h
  | cons x xs ih =>
    obtain ⟨hx, hxs⟩ := List.forall_mem_cons.1 hxs
    exact List.isChain_cons.2 ⟨fun b _ => (hx b).1, ih hxs⟩

namespace Keeps

theorem refl (as : List α) : Keeps R as as := ⟨id, fun _ => id⟩

theorem trans (h : Keeps R as bs) (h' : Keeps R bs cs) : Keeps R as cs :=
  ⟨fun has => h'.isChain (h.isChain has), fun p hp => h'.head p (h.head p hp)⟩

/-- Equal items in front. -/
theorem append (xs : List α) (h : Keeps R as bs) : Keeps R (xs ++ as) (xs ++ bs) where
  isChain := by
    simp only [List.isChain_append]
    exact fun ⟨hxs, has, hends⟩ => ⟨hxs, h.isChain has, fun x hx => h.head x (hends x hx)⟩
  head := by
    cases xs with
    | nil => exact h.head
    | cons x xs => exact fun _ => id

/-- An item that may be followed by anything in place of another. -/
theorem cons {x y : α} (hfree : ∀ b, R y b) (hxy : ∀ p, R p x → R p y)
    (h : as.IsChain R → bs.IsChain R) : Keeps R (x :: as) (y :: bs) where
  isChain has := List.isChain_cons.2 ⟨fun b _ => hfree b, h (List.isChain_cons.1 has).2⟩
  head := by
    intro p hp b hb
    cases hb
    exact hxy p (hp x rfl)

/-- Neutral items in place of any others. -/
theorem neutral (h : Keeps R as bs) (xs : List α) {ys : List α} (hne : ys ≠ [])
    (hys : ∀ y ∈ ys, Neutral R y) : Keeps R (xs ++ as) (ys ++ bs) where
  isChain has := isChain_neutral hys (h.isChain has.right_of_append)
  head := by
    cases ys with
    | nil => exact absurd rfl hne
    | cons y ys =>
      intro p _ b hb
      cases hb
      exact (hys y List.mem_cons_self p).2

end Keeps

end Text
end RecordSieve
