import Mathlib.Data.List.Induction
import Mathlib.Data.List.Nodup
import RecordSieve.Json.Value
/-!
# RecordSieve.Proofs.Json.Members

The members of an object as a table in the order of its keys.

`Ordered` is what every object has that was put together by `insert`. Ordered members
are known from their look-ups (`Ordered.ext`), so two ways of arranging the same pairs
give the same object, as long as no key stands in them twice (`get?_ofPairs`).
-/

namespace RecordSieve.Json.Members

/-- Members in the order of their keys, each key once. -/
def Ordered (ms : Members) : Prop := ms.Pairwise fun a b => a.1 < b.1

instance : DecidablePred Ordered := fun ms =>
  inferInstanceAs (Decidable (ms.Pairwise fun a b => a.1 < b.1))

theorem ordered_nil : Ordered [] := List.Pairwise.nil

variable {key other : String} {value : Json} {m : String × Json} {ms ns : Members}

/-! ### Setting a key -/

theorem mem_insert (h : m ∈ insert key value ms) : m = (key, value) ∨ m ∈ ms := by
  induction ms with
  | nil => exact .inl (List.mem_singleton.1 h)
  | cons n ms ih =>
    obtain ⟨k, v⟩ := n
    unfold insert at h
    split at h
    · exact List.mem_cons.1 h
    · split at h
      · rcases List.mem_cons.1 h with rfl | h
        · exact .inl rfl
        · exact .inr (List.mem_cons_of_mem _ h)
      · rcases List.mem_cons.1 h with rfl | h
        · exact .inr List.mem_cons_self
        · exact (ih h).imp_right (List.mem_cons_of_mem _)

theorem Ordered.insert (h : Ordered ms) (key : String) (value : Json) :
    Ordered (insert key value ms) := by
  induction ms with
  | nil => exact List.pairwise_singleton _ _
  | cons n ms ih =>
    obtain ⟨k, v⟩ := n
    obtain ⟨hhead, htail⟩ := List.pairwise_cons.1 h
    unfold Members.insert
    split
    · rename_i hlt
      refine List.pairwise_cons.2 ⟨fun m hm => ?_, h⟩
      rcases List.mem_cons.1 hm with rfl | hm
      · exact hlt
      · exact String.lt_trans hlt (hhead m hm)
    · rename_i hge
      split
      · rename_i heq
        subst heq
        exact List.pairwise_cons.2 ⟨hhead, htail⟩
      · rename_i hne
        refine List.pairwise_cons.2 ⟨fun m hm => ?_, ih htail⟩
        rcases mem_insert hm with rfl | hm
        · exact Decidable.byContradiction fun hlt =>
            hne (String.le_antisymm (String.not_lt.1 hlt) (String.not_lt.1 hge))
        · exact hhead m hm

/-- A key behind all others is set at the end. -/
theorem insert_of_forall_lt (h : ∀ m ∈ ms, m.1 < key) (value : Json) :
    insert key value ms = ms ++ [(key, value)] := by
  induction ms with
  | nil => rfl
  | cons n ms ih =>
    obtain ⟨k, v⟩ := n
    have hk : k < key := h _ List.mem_cons_self
    have hne : key ≠ k := by
      rintro rfl
      exact String.lt_irrefl _ hk
    rw [insert, if_neg (String.lt_asymm hk), if_neg hne,
      ih fun m hm => h m (List.mem_cons_of_mem _ hm), List.cons_append]

/-! ### Look-ups -/

theorem get?_cons_self (key : String) (value : Json) (ms : Members) :
    get? key ((key, value) :: ms) = some value := if_pos rfl

theorem get?_cons_of_ne (h : key ≠ other) (value : Json) (ms : Members) :
    get? key ((other, value) :: ms) = get? key ms := if_neg (Ne.symm h)

theorem get?_append (key : String) (ms ns : Members) :
    get? key (ms ++ ns) = (get? key ms).or (get? key ns) := by
  induction ms with
  | nil => rfl
  | cons n ms ih =>
    obtain ⟨k, v⟩ := n
    by_cases h : k = key
    · simp [get?, h]
    · simp [get?, h, ih]

theorem get?_eq_none_iff : get? key ms = none ↔ ∀ m ∈ ms, m.1 ≠ key := by
  induction ms with
  | nil => simp
  | cons n ms ih =>
    obtain ⟨k, v⟩ := n
    by_cases h : k = key
    · simp [get?, h]
    · simp [get?, h, ih]

/-- What is found stands among the members. -/
theorem mem_of_get? (h : get? key ms = some value) : (key, value) ∈ ms := by
  induction ms with
  | nil => cases h
  | cons n ms ih =>
    obtain ⟨k, v⟩ := n
    by_cases hk : k = key
    · subst hk
      rw [get?_cons_self] at h
      cases h
      exact List.mem_cons_self
    · rw [get?_cons_of_ne (Ne.symm hk)] at h
      exact List.mem_cons_of_mem _ (ih h)

theorem get?_of_mem (hnodup : (ms.map Prod.fst).Nodup) (h : (key, value) ∈ ms) :
    get? key ms = some value := by
  induction ms with
  | nil => cases h
  | cons n ms ih =>
    rw [List.map_cons, List.nodup_cons] at hnodup
    rcases List.mem_cons.1 h with rfl | h
    · exact get?_cons_self ..
    · have hne : key ≠ n.1 := by
        rintro rfl
        exact hnodup.1 (List.mem_map.2 ⟨_, h, rfl⟩)
      rw [get?_cons_of_ne hne, ih hnodup.2 h]

theorem Ordered.nodup (h : Ordered ms) : (ms.map Prod.fst).Nodup := by
  rw [List.nodup_iff_pairwise_ne, List.pairwise_map]
  refine h.imp fun hlt heq => ?_
  rw [heq] at hlt
  exact String.lt_irrefl _ hlt

/-- Ordered members are known from their look-ups. -/
theorem Ordered.ext (hm : Ordered ms) (hn : Ordered ns) (h : ∀ key, get? key ms = get? key ns) :
    ms = ns := by
  have hbefore : ∀ {key : String} {ms : Members}, (∀ m ∈ ms, key < m.1) → get? key ms = none := by
    intro key ms hlt
    refine get?_eq_none_iff.2 fun m hm heq => ?_
    have := hlt m hm
    rw [heq] at this
    exact String.lt_irrefl _ this
  induction ms generalizing ns with
  | nil =>
    cases ns with
    | nil => rfl
    | cons n ns =>
      have hhead := h n.1
      rw [get?_cons_self] at hhead
      cases hhead
  | cons m ms ih =>
    obtain ⟨k, v⟩ := m
    cases ns with
    | nil =>
      have hhead := h k
      rw [get?_cons_self] at hhead
      cases hhead
    | cons n ns =>
      obtain ⟨l, w⟩ := n
      obtain ⟨hkms, hms⟩ := List.pairwise_cons.1 hm
      obtain ⟨hlns, hns⟩ := List.pairwise_cons.1 hn
      -- The smaller of two different first keys would be found on one side only.
      have hlt : ¬k < l := by
        intro hkl
        have hnone : get? k ((l, w) :: ns) = none := by
          refine hbefore fun m hm => ?_
          rcases List.mem_cons.1 hm with rfl | hm
          · exact hkl
          · exact String.lt_trans hkl (hlns m hm)
        rw [← h k, get?_cons_self] at hnone
        cases hnone
      have hgt : ¬l < k := by
        intro hlk
        have hnone : get? l ((k, v) :: ms) = none := by
          refine hbefore fun m hm => ?_
          rcases List.mem_cons.1 hm with rfl | hm
          · exact hlk
          · exact String.lt_trans hlk (hkms m hm)
        rw [h l, get?_cons_self] at hnone
        cases hnone
      obtain rfl : k = l := String.le_antisymm (String.not_lt.1 hgt) (String.not_lt.1 hlt)
      obtain rfl : v = w := by simpa [get?_cons_self] using h k
      congr 1
      refine ih hms hns fun key => ?_
      by_cases hkey : key = k
      · subst hkey
        rw [hbefore hkms, hbefore hlns]
      · simpa [get?_cons_of_ne hkey] using h key

/-! ### Pairs in any order -/

variable {ps : List (String × Json)}

theorem ofPairs_concat (ps : List (String × Json)) (p : String × Json) :
    ofPairs (ps ++ [p]) = insert p.1 p.2 (ofPairs ps) := by
  rw [ofPairs, List.foldl_append]
  rfl

theorem ordered_ofPairs (ps : List (String × Json)) : Ordered (ofPairs ps) := by
  induction ps using List.reverseRecOn with
  | nil => exact ordered_nil
  | append_singleton ps p ih =>
    rw [ofPairs_concat]
    exact ih.insert p.1 p.2

theorem mem_ofPairs (h : m ∈ ofPairs ps) : m ∈ ps := by
  induction ps using List.reverseRecOn with
  | nil => cases h
  | append_singleton ps p ih =>
    rw [ofPairs_concat] at h
    rw [List.mem_append, List.mem_singleton]
    exact (mem_insert h).symm.imp_left ih

/-- Ordered members are arranged already. -/
theorem Ordered.ofPairs_eq (h : Ordered ms) : ofPairs ms = ms := by
  induction ms using List.reverseRecOn with
  | nil => rfl
  | append_singleton ms m ih =>
    obtain ⟨hms, -, hlast⟩ := List.pairwise_append.1 h
    rw [ofPairs_concat, ih hms]
    exact insert_of_forall_lt (fun n hn => hlast n hn m (List.mem_singleton_self m)) m.2

/-- Arranging pairs with different keys changes no look-up. -/
theorem get?_ofPairs (h : (ps.map Prod.fst).Nodup) (key : String) :
    get? key (ofPairs ps) = get? key ps := by
  induction ps using List.reverseRecOn with
  | nil => rfl
  | append_singleton ps p ih =>
    obtain ⟨k, v⟩ := p
    rw [List.map_append, List.map_singleton, List.nodup_append] at h
    obtain ⟨hps, -, hlast⟩ := h
    rw [ofPairs_concat, get?_append]
    by_cases hkey : key = k
    · subst hkey
      have hnone : get? key ps = none :=
        get?_eq_none_iff.2 fun m hm => hlast m.1 (List.mem_map_of_mem hm) key
          (List.mem_singleton_self key)
      rw [get?_insert_self, hnone, get?_cons_self, Option.none_or]
    · rw [get?_insert_of_ne hkey, ih hps, get?_cons_of_ne hkey, get?_nil, Option.or_none]

/-- Arranging pairs with different keys loses none. -/
theorem mem_ofPairs_iff (h : (ps.map Prod.fst).Nodup) : m ∈ ofPairs ps ↔ m ∈ ps := by
  refine ⟨mem_ofPairs, fun hm => ?_⟩
  have hget : get? m.1 ps = some m.2 := get?_of_mem h hm
  rw [← get?_ofPairs h] at hget
  exact mem_of_get? hget

theorem ofPairs_perm (h : (ps.map Prod.fst).Nodup) : (ofPairs ps).Perm ps :=
  (List.perm_ext_iff_of_nodup (.of_map _ (ordered_ofPairs ps).nodup) (.of_map _ h)).2 fun _ =>
    mem_ofPairs_iff h

/-! ### Removing a key -/

theorem erase_sublist (key : String) (ms : Members) : (erase key ms).Sublist ms := by
  induction ms with
  | nil => exact .slnil
  | cons n ms ih =>
    obtain ⟨k, v⟩ := n
    unfold erase
    split
    · exact ih.cons _
    · exact ih.cons_cons _

theorem Ordered.erase (h : Ordered ms) (key : String) : Ordered (erase key ms) :=
  h.sublist (erase_sublist key ms)

theorem get?_erase (key other : String) (ms : Members) :
    get? other (erase key ms) = if other = key then none else get? other ms := by
  induction ms with
  | nil => simp [erase]
  | cons n ms ih =>
    obtain ⟨k, v⟩ := n
    by_cases hk : k = key
    · subst hk
      rw [erase, if_pos rfl, ih]
      by_cases ho : other = k
      · rw [if_pos ho, if_pos ho]
      · rw [if_neg ho, if_neg ho, get?_cons_of_ne ho]
    · rw [erase, if_neg hk]
      by_cases ho : other = k
      · subst ho
        rw [get?_cons_self, get?_cons_self, if_neg hk]
      · rw [get?_cons_of_ne ho, get?_cons_of_ne ho, ih]

end RecordSieve.Json.Members
