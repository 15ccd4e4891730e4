import RecordSieve.Query.Scalar
/-!
# RecordSieve.Proofs.Query.Lookup

Looking a value up in the set of a membership test. The indexes of the set are
sorted, freed of repetitions and searched by halving; the results here say that
none of this shows: an index holds exactly the keys it was built from
(`KeyIndex.contains_ofList`), and a value is found exactly if a plain scan of the
written literals finds one that equals it (`Scalar.isIn_ofList`).

A NaN is the one value a scan and an index disagree about, since it has a key but
equals nothing: it is found if it was written (`ValueSet.lookups_ofList`). So the
result about scans asks for literals that are no NaNs. For the same reason a NaN that
is repeated is not dropped from the index, and the search is right about keys that
stand there more than once.
-/

namespace RecordSieve

namespace KeyIndex

/-! ### Repetitions -/

section Repetitions

variable {κ : Type} (same : κ → κ → Bool)

/-- When the neighbours of `k` that are the same are dropped, keys behind `k` may go. -/
theorem eraseRepsBy_loop_sublist (k : κ) (ks kept : List κ) :
    (List.eraseRepsBy.loop same k ks kept).Sublist (kept.reverse ++ k :: ks) := by
  induction ks generalizing k kept with
  | nil =>
    have hlast : List.eraseRepsBy.loop same k [] kept = kept.reverse ++ [k] := by
      rw [List.eraseRepsBy.loop, List.reverse_cons]
    exact hlast ▸ .refl _
  | cons l ks ih =>
    have hkept : kept.reverse ++ k :: l :: ks = (k :: kept).reverse ++ l :: ks := by
      rw [List.reverse_cons, List.append_assoc, List.singleton_append]
    rw [List.eraseRepsBy.loop]
    split
    · exact (ih k kept).trans (.append_left ((List.sublist_cons_self l ks).cons_cons k) _)
    · rw [hkept]
      exact ih l (k :: kept)

theorem eraseRepsBy_sublist (ks : List κ) : (ks.eraseRepsBy same).Sublist ks := by
  cases ks with
  | nil => exact .slnil
  | cons k ks => exact eraseRepsBy_loop_sublist same k ks []

variable {same}

theorem mem_eraseRepsBy_loop {k x : κ} {ks kept : List κ}
    (hsame : ∀ a ∈ k :: ks, ∀ b ∈ k :: ks, same a b = true → a = b) :
    x ∈ List.eraseRepsBy.loop same k ks kept ↔ x ∈ kept ∨ x ∈ k :: ks := by
  induction ks generalizing k kept with
  | nil => simp [List.eraseRepsBy.loop, or_comm]
  | cons l ks ih =>
    have hlater : l :: ks ⊆ k :: l :: ks := List.subset_cons_self ..
    have hwithout : k :: ks ⊆ k :: l :: ks := List.cons_subset_cons k (List.subset_cons_self ..)
    rw [List.eraseRepsBy.loop]
    split
    · rename_i h
      obtain rfl := hsame k List.mem_cons_self l (hlater List.mem_cons_self) h
      rw [ih fun a ha b hb => hsame a (hwithout ha) b (hwithout hb)]
      simp
    · rw [ih fun a ha b hb => hsame a (hlater ha) b (hlater hb)]
      simp only [List.mem_cons, or_left_comm, or_assoc]

/-- Where keys that are the same are equal, only keys are dropped that stay in the list. -/
theorem mem_eraseRepsBy {x : κ} {ks : List κ}
    (hsame : ∀ a ∈ ks, ∀ b ∈ ks, same a b = true → a = b) :
    x ∈ ks.eraseRepsBy same ↔ x ∈ ks := by
  cases ks with
  | nil => rfl
  | cons k ks => simp [List.eraseRepsBy, mem_eraseRepsBy_loop hsame]

end Repetitions

/-! ### Sorted keys -/

variable {κ : Type} [Ord κ]

/-- Keys in increasing order, repetitions allowed. -/
def Increasing (ks : List κ) : Prop := ks.Pairwise fun a b => (compare a b).isLE = true

theorem increasing_mergeSort [Std.TransOrd κ] (ks : List κ) :
    Increasing (ks.mergeSort fun a b => (compare a b).isLE) := by
  apply List.pairwise_mergeSort
  · intro a b c hab hbc
    exact Std.TransOrd.isLE_trans hab hbc
  · intro a b
    rw [Std.OrientedOrd.eq_swap (a := b) (b := a)]
    cases compare a b <;> rfl

/-- Before a key that is too small there are only keys that are too small. -/
theorem Increasing.le_of_lt [Std.TransOrd κ] {keys : Array κ} (hs : Increasing keys.toList) {i m : Nat}
    (hi : i < keys.size) (hm : m < keys.size) (h : compare keys[m] keys[i] = .lt) : m + 1 ≤ i := by
  rcases Nat.lt_trichotomy i m with him | rfl | him
  · have hle := List.pairwise_iff_getElem.1 hs i m (by simpa using hi) (by simpa using hm) him
    simp only [Array.getElem_toList] at hle
    rw [Std.OrientedOrd.eq_swap, h] at hle
    exact absurd hle (by decide)
  · rw [Std.ReflOrd.compare_self] at h
    exact absurd h (by decide)
  · exact him

/-- After a key that is too large there are only keys that are too large. -/
theorem Increasing.lt_of_gt [Std.ReflOrd κ] {keys : Array κ} (hs : Increasing keys.toList) {i m : Nat}
    (hi : i < keys.size) (hm : m < keys.size) (h : compare keys[m] keys[i] = .gt) : i < m := by
  rcases Nat.lt_trichotomy i m with him | rfl | him
  · exact him
  · rw [Std.ReflOrd.compare_self] at h
    exact absurd h (by decide)
  · have hle := List.pairwise_iff_getElem.1 hs m i (by simpa using hm) (by simpa using hi) him
    simp only [Array.getElem_toList] at hle
    rw [h] at hle
    exact absurd hle (by decide)

/-- Halving finds a key exactly if it stands between the two bounds. -/
theorem search_iff [Std.TransOrd κ] [Std.LawfulEqOrd κ] {keys : Array κ}
    (hs : Increasing keys.toList) (k : κ) (lo hi : Nat) (h : hi ≤ keys.size) :
    search keys k lo hi h = true ↔
      ∃ (i : Nat) (hi' : i < keys.size), lo ≤ i ∧ i < hi ∧ keys[i] = k := by
  fun_induction search keys k lo hi h with
  -- The key stands in the middle, or the half that cannot hold it is left out, by the
  -- order of the keys.
  | case1 lo hi h hlt mid hc =>
    have hk := Std.LawfulEqOrd.eq_of_compare hc
    refine iff_of_true rfl ⟨mid, by omega, by omega, by omega, hk⟩
  | case2 lo hi h hlt mid hc ih =>
    rw [ih]
    constructor
    · intro h
      obtain ⟨i, hi', h1, h2, rfl⟩ := h
      exact ⟨i, hi', by omega, h2, rfl⟩
    · intro h
      obtain ⟨i, hi', h1, h2, rfl⟩ := h
      exact ⟨i, hi', hs.le_of_lt hi' (by omega) hc, h2, rfl⟩
  | case3 lo hi h hlt mid hc ih =>
    rw [ih]
    constructor
    · intro h
      obtain ⟨i, hi', h1, h2, rfl⟩ := h
      exact ⟨i, hi', h1, by omega, rfl⟩
    · intro h
      obtain ⟨i, hi', h1, h2, rfl⟩ := h
      exact ⟨i, hi', h1, hs.lt_of_gt hi' (by omega) hc, rfl⟩
  | case4 lo hi h hlt =>
    refine iff_of_false (by simp) ?_
    intro h
    obtain ⟨i, hi', h1, h2, -⟩ := h
    omega

/-- Whatever repetitions increasing keys have, the keys are found and no others. -/
theorem contains_iff [Std.TransOrd κ] [Std.LawfulEqOrd κ] {ix : KeyIndex κ}
    (hs : Increasing ix.keys.toList) (k : κ) : ix.contains k = true ↔ k ∈ ix.keys := by
  rw [contains, search_iff hs, Array.mem_iff_getElem]
  constructor
  · intro h
    obtain ⟨i, hi, -, -, hk⟩ := h
    exact ⟨i, hi, hk⟩
  · intro h
    obtain ⟨i, hi, hk⟩ := h
    exact ⟨i, hi, Nat.zero_le i, hi, hk⟩

/-- An index holds exactly the keys it was built from, if keys that are the same are equal;
equal keys need not be the same. -/
theorem contains_ofList [Std.TransOrd κ] [Std.LawfulEqOrd κ] {same : κ → κ → Bool} {ks : List κ}
    (hsame : ∀ a ∈ ks, ∀ b ∈ ks, same a b = true → a = b) (k : κ) :
    (ofList same ks).contains k = true ↔ k ∈ ks := by
  have hs : Increasing (ofList same ks).keys.toList := by
    rw [ofList, List.toList_toArray]
    exact (increasing_mergeSort ks).sublist (eraseRepsBy_sublist same _)
  have hsorted : ∀ a ∈ ks.mergeSort fun a b => (compare a b).isLE,
      ∀ b ∈ ks.mergeSort fun a b => (compare a b).isLE, same a b = true → a = b :=
    fun a ha b hb => hsame a (List.mem_mergeSort.1 ha) b (List.mem_mergeSort.1 hb)
  rw [contains_iff hs, ofList, List.mem_toArray, mem_eraseRepsBy hsorted, List.mem_mergeSort]

end KeyIndex

/-! ### Numbers under their keys -/

namespace Binary64

/-- A finite number is no NaN. -/
theorem isNaN_of_isFinite {x : Binary64} (h : x.isFinite = true) : x.isNaN = false := by
  simp only [isFinite, decide_eq_true_eq] at h
  simp only [isNaN, decide_eq_false_iff_not]
  omega

/-- Once zero is added to them, numbers are the same exactly if they are equal, or NaNs that
differ in their quiet bits alone. -/
theorem plusZero_eq_iff {m n : Binary64} :
    m.plusZero = n.plusZero ↔ n.numEq m = true ∨ n.isNaN = true ∧ m.quiet = n.quiet := by
  have hnan : ∀ {k : Binary64 → Binary64}, (∀ x, (k x).isNaN = x.isNaN) → k m = k n →
      m.isNaN = n.isNaN := fun hk h => by rw [← hk m, h, hk]
  cases hn : n.isNaN with
  | false =>
    cases hm : m.isNaN with
    | false => simp [numEq_iff_plusZero hn hm, eq_comm]
    | true =>
      refine iff_of_false (fun h => ?_) (by simp [numEq, hm])
      have h := hnan isNaN_plusZero h
      rw [hm, hn] at h
      cases h
  | true =>
    have hne : n.numEq m = false := by simp [numEq, hn]
    rw [hne]
    constructor
    · intro h
      have hm := (hnan isNaN_plusZero h).trans hn
      rw [plusZero_of_isNaN hm, plusZero_of_isNaN hn] at h
      exact .inr ⟨rfl, h⟩
    · rintro (h | ⟨-, h⟩)
      · cases h
      · rw [plusZero_of_isNaN ((hnan isNaN_quiet h).trans hn), plusZero_of_isNaN hn, h]

/-- Of numbers that zero was added to, those that are equal are the same. -/
theorem eq_of_numEq_plusZero {m n : Binary64} (h : m.plusZero.numEq n.plusZero = true) :
    m.plusZero = n.plusZero := by
  simp only [numEq, isNaN_plusZero, Bool.and_eq_true, Bool.not_eq_true', decide_eq_true_eq] at h
  obtain ⟨⟨hm, hn⟩, hkey⟩ := h
  rw [key_plusZero hm, key_plusZero hn] at hkey
  exact (numEq_iff_plusZero hm hn).1 (by simp [numEq, hm, hn, hkey])

end Binary64

namespace ValueSet

theorem mem_numbers {vs : List Literal} {n : Binary64} :
    n ∈ Literal.numbers vs ↔ .number n ∈ vs := by
  simp only [Literal.numbers, List.mem_filterMap]
  constructor
  · intro h
    obtain ⟨v, hv, hn⟩ := h
    cases v with
    | number m => simp only [Option.some.injEq] at hn; rwa [← hn]
    | text s => simp at hn
    | boolean b => simp at hn
  · intro h
    exact ⟨_, h, rfl⟩

theorem mem_texts {vs : List Literal} {s : String} : s ∈ Literal.texts vs ↔ .text s ∈ vs := by
  simp only [Literal.texts, List.mem_filterMap]
  constructor
  · intro h
    obtain ⟨v, hv, hs⟩ := h
    cases v with
    | number m => simp at hs
    | text t => simp only [Option.some.injEq] at hs; rwa [← hs]
    | boolean b => simp at hs
  · intro h
    exact ⟨_, h, rfl⟩

/-- A number is found exactly if a written one equals it, or if it is a NaN that was written,
be it quiet or signalling. -/
theorem containsNumber_ofList_iff (vs : List Literal) (n : Binary64) :
    (ofList vs).containsNumber n = true ↔
      (∃ m, .number m ∈ vs ∧ n.numEq m = true) ∨
        n.isNaN = true ∧ ∃ m, .number m ∈ vs ∧ m.quiet = n.quiet := by
  have hsame : ∀ a ∈ (Literal.numbers vs).map Binary64.plusZero,
      ∀ b ∈ (Literal.numbers vs).map Binary64.plusZero, a.numEq b = true → a = b := by
    intro a ha b hb h
    obtain ⟨m, -, rfl⟩ := List.mem_map.1 ha
    obtain ⟨n, -, rfl⟩ := List.mem_map.1 hb
    exact Binary64.eq_of_numEq_plusZero h
  rw [containsNumber, ofList, KeyIndex.contains_ofList hsame, List.mem_map]
  simp only [mem_numbers, Binary64.plusZero_eq_iff]
  constructor
  · rintro ⟨m, hm, heq | ⟨hn, hquiet⟩⟩
    · exact .inl ⟨m, hm, heq⟩
    · exact .inr ⟨hn, m, hm, hquiet⟩
  · rintro (⟨m, hm, heq⟩ | ⟨hn, m, hm, hquiet⟩)
    · exact ⟨m, hm, .inl heq⟩
    · exact ⟨m, hm, .inr ⟨hn, hquiet⟩⟩

theorem containsNumber_ofList {vs : List Literal} (hvs : ∀ n, .number n ∈ vs → n.isNaN = false)
    (n : Binary64) :
    (ofList vs).containsNumber n = true ↔ ∃ m, .number m ∈ vs ∧ n.numEq m = true := by
  have hnan : ¬(n.isNaN = true ∧ ∃ m, .number m ∈ vs ∧ m.quiet = n.quiet) := by
    rintro ⟨hn, m, hm, hquiet⟩
    have hsame : m.isNaN = n.isNaN := by
      rw [← Binary64.isNaN_quiet m, hquiet, Binary64.isNaN_quiet]
    rw [hn, hvs m hm] at hsame
    cases hsame
  rw [containsNumber_ofList_iff, or_iff_left hnan]

theorem containsText_ofList (vs : List Literal) (s : String) :
    (ofList vs).containsText s = true ↔ .text s ∈ vs := by
  rw [containsText, ofList, KeyIndex.contains_ofList fun a _ b _ h => eq_of_beq h, mem_texts]

theorem containsBoolean_ofList (vs : List Literal) (b : Bool) :
    (ofList vs).containsBoolean b = true ↔ .boolean b ∈ vs := by
  cases b <;> simp [containsBoolean, ofList]

/-- Sets of the same literals answer alike, in whatever order and however often each of
them was written. -/
theorem contains_congr {vs ws : List Literal} (h : ∀ v, v ∈ ws ↔ v ∈ vs) (p : Literal) :
    (ofList ws).contains p = (ofList vs).contains p := by
  rw [Bool.eq_iff_iff]
  cases p with
  | number n => simp only [contains, containsNumber_ofList_iff, h]
  | text s => simp only [contains, containsText_ofList, h]
  | boolean b => simp only [contains, containsBoolean_ofList, h]

/-- What the lookups of a set answer. Each looks among the literals of one kind. Texts and
truth values are found if they were written, and numbers if an equal one was written; a NaN
equals nothing, but is found if it was written, its quiet bit apart. The order of the
literals and repetitions make no difference. -/
theorem lookups_ofList (vs : List Literal) :
    (∀ n, (ofList vs).containsNumber n = true ↔
      (∃ m, .number m ∈ vs ∧ n.numEq m = true) ∨
        n.isNaN = true ∧ ∃ m, .number m ∈ vs ∧ m.quiet = n.quiet) ∧
    (∀ s, (ofList vs).containsText s = true ↔ .text s ∈ vs) ∧
    (∀ b, (ofList vs).containsBoolean b = true ↔ .boolean b ∈ vs) ∧
    (∀ ws, (∀ v, v ∈ ws ↔ v ∈ vs) → ∀ p, (ofList ws).contains p = (ofList vs).contains p) :=
  ⟨containsNumber_ofList_iff vs, containsText_ofList vs, containsBoolean_ofList vs,
    fun _ h p => contains_congr h p⟩

/-- Minus zero and a signalling NaN, written in another order and with a repetition. The
quiet NaN with the same payload is found, and one with another payload is not. -/
theorem lookups_ofList_repeated :
    let signalling := Binary64.ofBits 0x7FF0000000000001
    let quiet := Binary64.ofBits 0x7FF8000000000001
    (∀ v, v ∈ [Literal.number signalling, .number (-.zero), .number signalling] ↔
        v ∈ [Literal.number (-.zero), .number signalling]) ∧
      (ofList [.number signalling, .number (-.zero), .number signalling]).contains
          (.number .zero) =
        (ofList [.number (-.zero), .number signalling]).contains (.number .zero) ∧
      (ofList [.number (-.zero), .number signalling]).containsNumber .zero = true ∧
      (ofList [.number (-.zero), .number signalling]).containsNumber quiet = true ∧
      (ofList [.number (-.zero), .number signalling]).containsNumber .nan = false := by
  intro signalling quiet
  obtain ⟨hnumber, -, -, hcongr⟩ := lookups_ofList [.number (-.zero), .number signalling]
  have hmem : ∀ v, v ∈ [Literal.number signalling, .number (-.zero), .number signalling] ↔
      v ∈ [Literal.number (-.zero), .number signalling] := by
    intro v
    simp only [List.mem_cons, List.not_mem_nil, or_false]
    grind
  have hzero := (hnumber .zero).2 (.inl ⟨-.zero, List.mem_cons_self, by decide⟩)
  have hquiet := (hnumber quiet).2 (.inr ⟨by decide, signalling, by simp, by decide⟩)
  have hother : ∀ m, Literal.number m ∈ [Literal.number (-.zero), .number signalling] →
      Binary64.nan.numEq m = false ∧ m.quiet ≠ Binary64.nan.quiet := by
    simp only [List.mem_cons, List.not_mem_nil, or_false, Literal.number.injEq]
    rintro m (rfl | rfl) <;> decide
  have hnan : (ofList [.number (-.zero), .number signalling]).containsNumber .nan ≠ true := by
    rw [Ne, hnumber]
    rintro (⟨m, hm, heq⟩ | ⟨-, m, hm, heq⟩)
    · rw [(hother m hm).1] at heq
      cases heq
    · exact (hother m hm).2 heq
  exact ⟨hmem, hcongr _ hmem _, hzero, hquiet, Bool.eq_false_iff.2 hnan⟩

end ValueSet

/-- A value is found in a set exactly if it equals one of the written literals. -/
theorem Scalar.isIn_ofList {vs : List Literal} (hvs : ∀ n, .number n ∈ vs → n.isNaN = false)
    (s : Scalar) : s.isIn (.ofList vs) = vs.any fun v => s.same (.ofLiteral v) := by
  rw [Bool.eq_iff_iff, List.any_eq_true]
  -- Values of different kinds are never the same, so each kind looks in its own index.
  cases s with
  | absent => simp [isIn, same]
  | list ws => simp [isIn, same]
  | number n =>
    rw [isIn, ValueSet.containsNumber_ofList hvs]
    constructor
    · intro h
      obtain ⟨m, hm, hn⟩ := h
      exact ⟨.number m, hm, hn⟩
    · intro h
      obtain ⟨v, hv, hs⟩ := h
      cases v with
      | number m => exact ⟨m, hv, hs⟩
      | text t => simp [same, ofLiteral] at hs
      | boolean b => simp [same, ofLiteral] at hs
  | text t =>
    rw [isIn, ValueSet.containsText_ofList]
    constructor
    · intro h
      exact ⟨.text t, h, by simp [same, ofLiteral]⟩
    · intro h
      obtain ⟨v, hv, hs⟩ := h
      cases v with
      | number m => simp [same, ofLiteral] at hs
      | text u => simp only [same, ofLiteral, beq_iff_eq] at hs; rwa [hs]
      | boolean b => simp [same, ofLiteral] at hs
  | boolean b =>
    rw [isIn, ValueSet.containsBoolean_ofList]
    constructor
    · intro h
      exact ⟨.boolean b, h, by simp [same, ofLiteral]⟩
    · intro h
      obtain ⟨v, hv, hs⟩ := h
      cases v with
      | number m => simp [same, ofLiteral] at hs
      | text t => simp [same, ofLiteral] at hs
      | boolean c => simp only [same, ofLiteral, beq_iff_eq] at hs; rwa [hs]

end RecordSieve
