import RecordSieve.Proofs.Sql.Step
/-!
# RecordSieve.Proofs.Sql.Lookahead

Readers that look ahead up to the next white space only. `IsLocal f` says of a reader `f` that
what it takes off a text depends on the text behind it up to a white space, and not on what
stands behind that: it does the same on any two texts that `Agree` so far. The combinations that
readers are made of keep this property, so that it is proved of a reader by naming them.
-/

namespace RecordSieve
namespace Sql

open Text (isBlank takeWhile_append dropWhile_append)

theorem startsWith_iff {lead cs : List Char} : startsWith lead cs = true ↔ lead <+: cs := by
  rw [startsWith, beq_iff_eq, List.prefix_iff_eq_take, eq_comm]

theorem not_startsWith {lead cs : List Char} (h : ∀ ds, cs = lead ++ ds → False) :
    ¬startsWith lead cs = true := by
  intro hstart
  obtain ⟨ds, rfl⟩ := startsWith_iff.1 hstart
  exact h ds rfl

/-- Whether the first characters of a text pass some tests, one each. -/
def passes : List (Char → Bool) → List Char → Bool
  | [], _ => true
  | _ :: _, [] => false
  | p :: ps, c :: cs => p c && passes ps cs

theorem startsWith_eq_passes (lead cs : List Char) :
    startsWith lead cs = passes (lead.map fun d c => c == d) cs := by
  induction lead generalizing cs with
  | nil => rfl
  | cons d ds ih =>
    cases cs with
    | nil => rfl
    | cons c cs => rw [startsWith_cons, ih]; rfl

/-! ### Texts that agree up to white space -/

theorem any_isBlank_dropLast {lead : List Char} (h : ∀ c ∈ lead, isBlank c = false) :
    lead.dropLast.any isBlank = false :=
  List.any_eq_false.2 fun c hc => by simp [h c (List.dropLast_subset _ hc)]

/-- Two texts are the same up to some white space, that included. -/
inductive Agree : List Char → List Char → Prop
  | blank {b : Char} (us vs : List Char) : isBlank b = true → Agree (b :: us) (b :: vs)
  | cons (c : Char) {us vs : List Char} : Agree us vs → Agree (c :: us) (c :: vs)

namespace Agree

variable {us vs : List Char}

theorem append (h : Agree us vs) (cs : List Char) : Agree (cs ++ us) (cs ++ vs) := by
  induction cs with
  | nil => exact h
  | cons c cs ih => exact .cons c ih

theorem head? (h : Agree us vs) : vs.head? = us.head? := by
  cases h with
  | blank => rfl
  | cons => rfl

/-- Texts that agree pass the same tests of their first characters, if white space passes none
of the tests but perhaps the last. -/
theorem passes (h : Agree us vs) {ps : List (Char → Bool)}
    (hps : ∀ p ∈ ps.dropLast, ∀ b, isBlank b = true → p b = false) : passes ps vs = passes ps us := by
  induction h generalizing ps with
  | @blank b us vs hb =>
    match ps, hps with
    | [], _ => rfl
    | [p], _ => rfl
    | p :: q :: ps, hps => simp only [Sql.passes, hps p List.mem_cons_self b hb, Bool.false_and]
  | cons c _ ih =>
    match ps, hps with
    | [], _ => rfl
    | [p], _ => rfl
    | p :: q :: ps, hps =>
      have htail : ∀ r ∈ (q :: ps).dropLast, ∀ b, isBlank b = true → r b = false :=
        fun r hr => hps r (List.mem_cons_of_mem _ hr)
      have hrest := ih htail
      simp only [Sql.passes] at hrest ⊢
      rw [hrest]

/-- Texts that agree start with the same characters, as far as these are no white space. -/
theorem startsWith (h : Agree us vs) {lead : List Char}
    (hlead : lead.dropLast.any isBlank = false) :
    Sql.startsWith lead vs = Sql.startsWith lead us := by
  rw [startsWith_eq_passes, startsWith_eq_passes]
  refine h.passes fun p hp b hb => ?_
  rw [← List.map_dropLast] at hp
  obtain ⟨c, hc, rfl⟩ := List.mem_map.1 hp
  rw [beq_eq_false_iff_ne]
  intro he
  exact List.any_eq_false.1 hlead c hc (he ▸ hb)

end Agree

/-! ### Readers that look ahead up to white space -/

variable {α β : Type}

/-- A reader gives the same result on texts that agree behind what it takes. -/
def IsLocal (f : List Char → Option (α × List Char)) : Prop :=
  ∀ cs a rest, f cs = some (a, rest) →
    ∃ xs, cs = xs ++ rest ∧ ∀ rest', Agree rest rest' → f (xs ++ rest') = some (a, rest')

namespace IsLocal

variable {f g : List Char → Option (α × List Char)}

theorem none : IsLocal fun _ => (Option.none : Option (α × List Char)) := nofun

/-- Nothing is taken. -/
theorem pure (a : α) : IsLocal fun cs => some (a, cs) := by
  intro cs b rest h
  cases h
  exact ⟨[], rfl, fun _ _ => rfl⟩

/-- A choice that does not depend on the text. -/
theorem iteOf {p : Prop} [Decidable p] (hf : p → IsLocal f) (hg : IsLocal g) :
    IsLocal fun cs => if p then f cs else g cs := by
  by_cases hp : p
  · simpa only [if_pos hp] using hf hp
  · simpa only [if_neg hp] using hg

theorem ite {p : Prop} [Decidable p] (hf : IsLocal f) (hg : IsLocal g) :
    IsLocal fun cs => if p then f cs else g cs :=
  iteOf (fun _ => hf) hg

/-- A choice by what is ahead. -/
theorem iteAhead {q : List Char → Bool} (hq : ∀ us vs, Agree us vs → q vs = q us)
    (hf : IsLocal f) (hg : IsLocal g) : IsLocal fun cs => if q cs then f cs else g cs := by
  intro cs a rest h
  simp only at h
  split at h
  · rename_i hcs
    obtain ⟨xs, rfl, hxs⟩ := hf cs a rest h
    refine ⟨xs, rfl, fun rest' hagree => ?_⟩
    simp only [hq _ _ (hagree.append xs), hcs, if_true, hxs rest' hagree]
  · rename_i hcs
    obtain ⟨xs, rfl, hxs⟩ := hg cs a rest h
    refine ⟨xs, rfl, fun rest' hagree => ?_⟩
    simp only [hq _ _ (hagree.append xs), hcs, hxs rest' hagree]
    rfl

/-- A choice by what the text starts with. -/
theorem iteStartsWith {lead : List Char} (hlead : lead.dropLast.any isBlank = false)
    (hf : IsLocal f) (hg : IsLocal g) :
    IsLocal fun cs => if startsWith lead cs then f cs else g cs :=
  iteAhead (fun _ _ hagree => hagree.startsWith hlead) hf hg

theorem congr (h : IsLocal f) (heq : ∀ cs, g cs = f cs) : IsLocal g := by
  rwa [show g = f from funext heq]

/-- A start that is taken. -/
theorem consume (lead : List Char) (hf : IsLocal f) :
    IsLocal fun cs => if startsWith lead cs then f (cs.drop lead.length) else .none := by
  intro cs a rest h
  simp only at h
  split at h
  · rename_i hstart
    obtain ⟨ds, rfl⟩ := startsWith_iff.1 hstart
    rw [List.drop_left] at h
    obtain ⟨xs, rfl, hxs⟩ := hf ds a rest h
    refine ⟨lead ++ xs, (List.append_assoc ..).symm, fun rest' hagree => ?_⟩
    have hstart' : startsWith lead (lead ++ (xs ++ rest')) = true :=
      startsWith_iff.2 (List.prefix_append _ _)
    simp only [List.append_assoc, hstart', if_true, List.drop_left, hxs rest' hagree]
  · cases h

/-- A choice by a start that is taken. -/
theorem behind (lead : List Char) (hlead : lead.dropLast.any isBlank = false)
    (hf : IsLocal f) (hg : IsLocal g) :
    IsLocal fun cs => if startsWith lead cs then f (cs.drop lead.length) else g cs := by
  refine (iteStartsWith hlead (consume lead hf) hg).congr fun cs => ?_
  split
  · rfl
  · rfl

theorem map (hf : IsLocal f) (k : α → β) :
    IsLocal fun cs => (f cs).map fun r => (k r.1, r.2) := by
  intro cs b rest h
  obtain ⟨⟨a, us⟩, ha, he⟩ := Option.map_eq_some_iff.1 h
  cases he
  obtain ⟨xs, rfl, hxs⟩ := hf cs a us ha
  exact ⟨xs, rfl, fun rest' hagree => by simp only [hxs rest' hagree, Option.map_some]⟩

/-- One reader after another, which may rely on what the first one gives. -/
theorem bindOf {k : α → List Char → Option (β × List Char)} {p : α → Prop} (hf : IsLocal f)
    (hp : ∀ cs r, f cs = some r → p r.1) (hk : ∀ a, p a → IsLocal (k a)) :
    IsLocal fun cs => (f cs).bind fun r => k r.1 r.2 := by
  intro cs b rest h
  obtain ⟨⟨a, us⟩, ha, hb⟩ := Option.bind_eq_some_iff.1 h
  obtain ⟨xs, rfl, hxs⟩ := hf cs a us ha
  obtain ⟨ys, rfl, hys⟩ := hk a (hp _ _ ha) us b rest hb
  refine ⟨xs ++ ys, (List.append_assoc ..).symm, fun rest' hagree => ?_⟩
  simp only [List.append_assoc, hxs _ (hagree.append ys), Option.bind_some, hys rest' hagree]

/-- One reader after another. -/
theorem bind {k : α → List Char → Option (β × List Char)} (hf : IsLocal f)
    (hk : ∀ a, IsLocal (k a)) : IsLocal fun cs => (f cs).bind fun r => k r.1 r.2 :=
  hf.bindOf (p := fun _ => True) (fun _ _ _ => trivial) fun a _ => hk a

/-- A choice by the first character, which is taken. -/
theorem cons {k : Char → List Char → Option (α × List Char)} (hk : ∀ c, IsLocal (k c))
    (hnil : ∀ r, f [] = some r → r.2 = []) (hcons : ∀ c cs, f (c :: cs) = k c cs) : IsLocal f := by
  intro cs a rest h
  cases cs with
  | nil =>
    obtain rfl : rest = [] := hnil _ h
    exact ⟨[], rfl, fun rest' hagree => by cases hagree⟩
  | cons c cs =>
    rw [hcons] at h
    obtain ⟨xs, rfl, hxs⟩ := hk c cs a rest h
    exact ⟨c :: xs, rfl, fun rest' hagree => (hcons c _).trans (hxs rest' hagree)⟩

theorem length_le {cs rest : List Char} {a : α} (hf : IsLocal f) (h : f cs = some (a, rest)) :
    rest.length ≤ cs.length := by
  obtain ⟨xs, rfl, -⟩ := hf cs a rest h
  rw [List.length_append]
  exact Nat.le_add_left _ _

/-- A number of characters. -/
theorem take (n : Nat) : IsLocal fun cs => some (cs.take n, cs.drop n) := by
  intro cs a rest h
  cases h
  refine ⟨cs.take n, (List.take_append_drop ..).symm, fun rest' hagree => ?_⟩
  have hlength : (cs.take n).length = n := by
    refine List.length_take_of_le (Nat.le_of_lt (Nat.lt_of_not_le fun hle => ?_))
    rw [List.drop_eq_nil_of_le hle] at hagree
    cases hagree
  simp only [List.take_left' hlength, List.drop_left' hlength]

/-- A value that may be missing. -/
theorem ofOption (o : Option α) : IsLocal fun cs => o.map fun a => (a, cs) := by
  cases o with
  | none => exact .none
  | some a => exact .pure a

/-- A run of characters that pass a test. -/
theorem span (p : Char → Bool) :
    IsLocal fun cs => some (cs.takeWhile p, cs.dropWhile p) := by
  intro cs a rest h
  cases h
  refine ⟨cs.takeWhile p, List.takeWhile_append_dropWhile.symm, fun rest' hagree => ?_⟩
  have hrun : ∀ c ∈ cs.takeWhile p, p c = true := List.all_eq_true.1 List.all_takeWhile
  have hend : ∀ c ∈ rest'.head?, p c = false := by
    intro c hc
    rw [hagree.head?] at hc
    simpa [Option.mem_def.1 hc] using List.head?_dropWhile_not p cs
  simp only [takeWhile_append hrun hend, dropWhile_append hrun hend]

/-- At most some number of characters that pass a test. -/
theorem takeUpTo (n : Nat) (p : Char → Bool) :
    IsLocal fun cs => some (Sql.takeUpTo n p cs, cs.drop (Sql.takeUpTo n p cs).length) := by
  have hnil : ∀ n, Sql.takeUpTo n p [] = [] := fun n => by simp [Sql.takeUpTo]
  have hcons : ∀ n c cs, Sql.takeUpTo (n + 1) p (c :: cs) =
      if p c then c :: Sql.takeUpTo n p cs else [] := by
    intro n c cs
    simp only [Sql.takeUpTo, List.take_succ_cons, List.takeWhile_cons]
  intro cs a rest h
  cases h
  induction n generalizing cs with
  | zero => exact ⟨[], rfl, fun _ _ => rfl⟩
  | succ n ih =>
    cases cs with
    | nil => exact ⟨[], rfl, fun rest' hagree => by cases hagree⟩
    | cons c cs =>
      by_cases hc : p c = true
      · obtain ⟨xs, hcs, hxs⟩ := ih cs
        simp only [hcons, hc, if_true, List.length_cons, List.drop_succ_cons] at hcs ⊢
        refine ⟨c :: xs, congrArg (c :: ·) hcs, fun rest' hagree => ?_⟩
        obtain ⟨htake, hdrop⟩ := Prod.mk.inj (Option.some.inj (hxs rest' hagree))
        rw [htake] at hdrop
        simp only [List.cons_append, hcons, hc, if_true, List.length_cons, List.drop_succ_cons, htake,
          hdrop]
      · simp only [hcons, hc]
        refine ⟨[], rfl, fun rest' hagree => ?_⟩
        have hhead := hagree.head?
        cases rest' with
        | nil => cases hhead
        | cons d ds =>
          cases hhead
          simp [hcons, hc]

/-- Reading behind a first character that is always taken. -/
theorem tail (hf : IsLocal f) {c : Char}
    (hle : ∀ cs a rest, f (c :: cs) = some (a, rest) → rest.length ≤ cs.length) :
    IsLocal fun cs => f (c :: cs) := by
  intro cs a rest h
  obtain ⟨xs, hcs, hxs⟩ := hf _ a rest h
  cases xs with
  | nil =>
    have hlength := hle cs a rest h
    rw [← show c :: cs = rest from hcs] at hlength
    exact absurd hlength (Nat.not_succ_le_self _)
  | cons x xs =>
    obtain ⟨rfl, rfl⟩ := List.cons.inj hcs
    exact ⟨xs, rfl, hxs⟩

end IsLocal

end Sql
end RecordSieve
