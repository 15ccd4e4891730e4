/-!
# RecordSieve.Filter.Schedule

The order in which workers get to the items of a batch. Whatever that order is,
each result lands in the slot of its item, so reading the slots from the first to
the last gives what working through the items in their own order gives:
`Schedule.map_eq`.
-/

namespace RecordSieve

/-- An order of work on `n` items: every position once. -/
structure Schedule (n : Nat) where
  order : List Nat
  perm : order.Perm (List.range n)

namespace Schedule

/-- The items in their own order. -/
def inOrder (n : Nat) : Schedule n := ⟨List.range n, .refl _⟩

variable {α β : Type}

/-- Works on one position and puts the result into its slot. -/
def step (f : α → β) (items : Array α) (slots : Array (Option β)) (i : Nat) : Array (Option β) :=
  slots.setIfInBounds i (items[i]?.map f)

/-- The slots after working through the positions of a list. -/
def fill (f : α → β) (items : Array α) (order : List Nat) : Array (Option β) :=
  order.foldl (step f items) (Array.replicate items.size none)

/-- The results for a list of items, in the order of the items. -/
def map (f : α → β) (items : List α) (s : Schedule items.length) : List β :=
  (fill f items.toArray s.order).toList.filterMap id

theorem size_foldl_step (f : α → β) (items : Array α) (order : List Nat)
    (slots : Array (Option β)) : (order.foldl (step f items) slots).size = slots.size := by
  induction order generalizing slots with
  | nil => rfl
  | cons i order ih => simp [ih, step]

/-- A slot holds the result of its item once its position was worked on. -/
theorem getElem?_foldl_step (f : α → β) (items : Array α) (order : List Nat)
    (slots : Array (Option β)) (k : Nat) (hk : k < slots.size) :
    (order.foldl (step f items) slots)[k]? =
      if k ∈ order then some (items[k]?.map f) else slots[k]? := by
  induction order generalizing slots with
  | nil => simp
  | cons i order ih =>
    rw [List.foldl_cons, ih _ (by simpa [step] using hk)]
    by_cases hmem : k ∈ order
    · simp [hmem]
    · by_cases hik : i = k
      · subst hik; simp [hmem, step, hk]
      · simp [hmem, step, Ne.symm hik, hik]

/-- The order of work does not show in the results. -/
@[simp] theorem map_eq (f : α → β) (items : List α) (s : Schedule items.length) :
    map f items s = items.map f := by
  have hfill : (fill f items.toArray s.order).toList = items.map fun a => some (f a) := by
    apply List.ext_getElem?
    intro k
    by_cases hk : k < items.length
    · have hmem : k ∈ s.order := s.perm.mem_iff.2 (List.mem_range.2 hk)
      rw [Array.getElem?_toList, fill, getElem?_foldl_step _ _ _ _ _ (by simpa using hk)]
      simp [hmem, hk]
    · have hsize : (fill f items.toArray s.order).size = items.length := by
        simp [fill, size_foldl_step]
      rw [List.getElem?_eq_none (by simpa [hsize] using hk), List.getElem?_eq_none (by simpa using hk)]
  rw [map, hfill, List.filterMap_map]
  exact congrFun List.filterMap_eq_map items

end Schedule
end RecordSieve
