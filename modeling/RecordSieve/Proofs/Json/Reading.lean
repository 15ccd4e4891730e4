import RecordSieve.Json.Printer
import RecordSieve.Proofs.Json.Layout
import RecordSieve.Proofs.Json.Members
/-!
# RecordSieve.Proofs.Json.Reading

What the reader of JSON texts does with its parts.

The items of an array and the members of an object are read by one loop, `readList`.
A printed string is read back whatever follows it (`readString_renderString`), and every
object that is read has its members in the order of their keys
(`isOrdered_of_parse?`).
-/

namespace RecordSieve.Json

/-! ### Strings -/

theorem hexValue?_hexDigit {n : Nat} (h : n < 16) : hexValue? (hexDigit n) = some n := by
  revert n
  decide

/-- The escape of a control character by its code. -/
theorem readUnicodeEscape_control {n : Nat} (h : n < 32) (cs : List Char) :
    readUnicodeEscape ('0' :: '0' :: hexDigit (n / 16) :: hexDigit (n % 16) :: cs) =
      some (Char.ofNat n, cs) := by
  have hzero : hexValue? '0' = some 0 := rfl
  have hhigh := hexValue?_hexDigit (n := n / 16) (by omega)
  have hlow := hexValue?_hexDigit (n := n % 16) (by omega)
  have hcode : ((0 * 16 + 0) * 16 + n / 16) * 16 + n % 16 = n := by omega
  have hbelow : ¬(0xD800 ≤ n ∧ n ≤ 0xDBFF) ∧ ¬(0xDC00 ≤ n ∧ n ≤ 0xDFFF) := by omega
  have hread : readHex4 ('0' :: '0' :: hexDigit (n / 16) :: hexDigit (n % 16) :: cs) =
      some (n, cs) := by
    simp only [readHex4, hzero, hhigh, hlow, hcode, Option.bind_eq_bind, Option.bind_some]
    rfl
  simp only [readUnicodeEscape, hread, Option.bind_eq_bind, Option.bind_some, if_neg hbelow.1,
    if_neg hbelow.2]
  rfl

/-- A printed character is read back. -/
theorem readStringBody_renderChar (fuel : Nat) (c : Char) (cs : List Char) :
    readStringBody (fuel + 1) (renderChar c ++ cs) =
      (readStringBody fuel cs).map fun p => (c :: p.1, p.2) := by
  have hmap : ∀ r : Option (List Char × List Char),
      (r.bind fun p => some (c :: p.1, p.2)) = r.map fun p => (c :: p.1, p.2) := by
    intro r
    cases r <;> rfl
  -- An escape is a backslash and what `readEscape` makes of the rest of it.
  have hescape : ∀ escape : List Char, readEscape (escape ++ cs) = some (c, cs) →
      readStringBody (fuel + 1) ('\\' :: escape ++ cs) =
        (readStringBody fuel cs).map fun p => (c :: p.1, p.2) := by
    intro escape he
    rw [List.cons_append, readStringBody, if_neg (by decide), if_pos rfl, he]
    exact hmap _
  unfold renderChar
  split
  · rename_i h
    subst h
    exact hescape ['"'] rfl
  split
  · rename_i h
    subst h
    exact hescape ['\\'] rfl
  split
  · rename_i h
    subst h
    exact hescape ['n'] rfl
  split
  · rename_i h
    subst h
    exact hescape ['r'] rfl
  split
  · rename_i h
    subst h
    exact hescape ['t'] rfl
  split
  · rename_i h
    exact hescape ['b'] (by rw [← Char.ofNat_toNat c, h]; rfl)
  split
  · rename_i h
    exact hescape ['f'] (by rw [← Char.ofNat_toNat c, h]; rfl)
  split
  · rename_i h
    refine hescape ['u', '0', '0', hexDigit (c.toNat / 16), hexDigit (c.toNat % 16)] ?_
    have hread := readUnicodeEscape_control h cs
    rw [Char.ofNat_toNat] at hread
    exact hread
  · rename_i hquote hback _ _ _ _ _ hcontrol
    rw [List.singleton_append, readStringBody, if_neg hquote, if_neg hback, if_neg hcontrol]
    exact hmap _

theorem readStringBody_render {s : List Char} {fuel : Nat} (h : s.length < fuel)
    (rest : List Char) : readStringBody fuel (s.flatMap renderChar ++ '"' :: rest) = some (s, rest) := by
  induction s generalizing fuel with
  | nil =>
    obtain ⟨fuel, rfl⟩ := Nat.exists_eq_succ_of_ne_zero (Nat.ne_of_gt h)
    rfl
  | cons c s ih =>
    rw [List.length_cons] at h
    obtain ⟨fuel, rfl⟩ := Nat.exists_eq_succ_of_ne_zero (Nat.ne_of_gt (Nat.zero_lt_of_lt h))
    rw [List.flatMap_cons, List.append_assoc, readStringBody_renderChar, ih (by omega)]
    rfl

theorem renderChar_ne_nil (c : Char) : renderChar c ≠ [] := by
  unfold renderChar
  repeat' split
  all_goals exact List.cons_ne_nil _ _

theorem length_le_length_flatMap_renderChar (s : List Char) :
    s.length ≤ (s.flatMap renderChar).length := by
  induction s with
  | nil => exact Nat.le_refl _
  | cons c s ih =>
    have hc := List.length_pos_iff.2 (renderChar_ne_nil c)
    rw [List.flatMap_cons, List.length_append, List.length_cons]
    omega

/-- A printed string is read back, whatever follows it. -/
theorem readString_renderString {s : String} {budget : Nat}
    (h : (renderString s.toList).length ≤ budget) (rest : List Char) :
    readString budget (s.toList.flatMap renderChar ++ '"' :: rest) = some (s, rest) := by
  have hlength := length_le_length_flatMap_renderChar s.toList
  rw [renderString, List.length_cons, List.length_append] at h
  rw [readString, readStringBody_render (by omega), Option.map_some, String.ofList_toList]

/-! ### Lists of items -/

/-- Reads items with commas between them, up to a closing bracket. -/
def readList {α : Type} (item : Reader α) (close : Char) : Nat → Reader (List α)
  | 0, _ => none
  | fuel + 1, cs => do
    let (x, cs) ← item cs
    match skipSpace cs with
    | [] => none
    | c :: cs =>
      if c = ',' then
        let (xs, cs) ← readList item close fuel cs
        return (x :: xs, cs)
      else if c = close then return ([x], cs)
      else none

theorem readItems_eq_readList (value : Reader Json) (fuel : Nat) (cs : List Char) :
    readItems value fuel cs = readList value ']' fuel cs := by
  induction fuel generalizing cs with
  | zero => rfl
  | succ fuel ih =>
    rw [readItems, readList]
    refine congrArg _ (funext fun p => ?_)
    obtain ⟨v, cs⟩ := p
    simp only
    split
    · rename_i h
      simp only [h, if_true, ih]
    · rename_i h
      simp only [h]
      rfl
    · rename_i hcomma hclose
      split
      · rfl
      · rename_i c cs h
        have hne : c ≠ ',' ∧ c ≠ ']' :=
          ⟨fun hc => hcomma cs (by rw [h, hc]), fun hc => hclose cs (by rw [h, hc])⟩
        rw [if_neg hne.1, if_neg hne.2]

theorem readMembers_eq_readList (value : Reader Json) (budget fuel : Nat) (cs : List Char) :
    readMembers value budget fuel cs = readList (readMember value budget) '\x7d' fuel cs := by
  induction fuel generalizing cs with
  | zero => rfl
  | succ fuel ih =>
    rw [readMembers, readList]
    refine congrArg _ (funext fun p => ?_)
    obtain ⟨m, cs⟩ := p
    simp only
    split
    · rename_i h
      simp only [h, if_true, ih]
    · rename_i h
      simp only [h]
      rfl
    · rename_i hcomma hclose
      split
      · rfl
      · rename_i c cs h
        have hne : c ≠ ',' ∧ c ≠ '\x7d' :=
          ⟨fun hc => hcomma cs (by rw [h, hc]), fun hc => hclose cs (by rw [h, hc])⟩
        rw [if_neg hne.1, if_neg hne.2]

/-- What holds of every item that is read holds of all items of a list. -/
theorem forall_of_readList {α : Type} {item : Reader α} {close : Char} {P : α → Prop}
    (hitem : ∀ cs x rest, item cs = some (x, rest) → P x) {fuel : Nat} {cs rest : List Char}
    {xs : List α} (h : readList item close fuel cs = some (xs, rest)) : ∀ x ∈ xs, P x := by
  induction fuel generalizing cs xs with
  | zero => cases h
  | succ fuel ih =>
    rw [readList] at h
    obtain ⟨⟨x, mid⟩, hx, h⟩ := Option.bind_eq_some_iff.1 h
    have hPx := hitem _ _ _ hx
    simp only at h
    split at h
    · cases h
    · split at h
      · obtain ⟨⟨ys, mid'⟩, hys, h⟩ := Option.bind_eq_some_iff.1 h
        cases h
        exact List.forall_mem_cons.2 ⟨hPx, ih hys⟩
      · split at h
        · cases h
          exact List.forall_mem_singleton.2 hPx
        · cases h

/-! ### Objects in order -/

/-- A value whose objects all have their members in the order of their keys. -/
inductive IsOrdered : Json → Prop
  | atom {v : Json} (h : v.isContainer = false) : IsOrdered v
  | array {vs : List Json} (h : ∀ v ∈ vs, IsOrdered v) : IsOrdered (array vs)
  | object {ms : Members} (hms : ms.Ordered) (h : ∀ m ∈ ms, IsOrdered m.2) : IsOrdered (object ms)

theorem IsOrdered.items {vs : List Json} (h : IsOrdered (.array vs)) : ∀ v ∈ vs, IsOrdered v := by
  cases h with
  | atom h => cases h
  | array h => exact h

theorem IsOrdered.members {ms : Members} (h : IsOrdered (.object ms)) :
    ms.Ordered ∧ ∀ m ∈ ms, IsOrdered m.2 := by
  cases h with
  | atom h => cases h
  | object hms h => exact ⟨hms, h⟩

/-- What stands under a key of an ordered object is ordered. -/
theorem IsOrdered.get? {ms : Members} {key : String} {v : Json} (h : IsOrdered (.object ms))
    (hv : ms.get? key = some v) : IsOrdered v :=
  h.members.2 _ (Members.mem_of_get? hv)

theorem isContainer_of_readAtom {budget : Nat} {cs rest : List Char} {v : Json}
    (h : readAtom budget cs = some (v, rest)) : v.isContainer = false := by
  unfold readAtom at h
  split at h
  · cases h
  -- Every kind of atom is wrapped around what was read of it.
  repeat' split at h
  all_goals
    obtain ⟨r, -, hr⟩ := Option.map_eq_some_iff.1 h
    cases hr
    rfl

theorem isOrdered_of_readArray {value : Reader Json} {budget : Nat} {cs rest : List Char} {v : Json}
    (hvalue : ∀ cs w rest, value cs = some (w, rest) → IsOrdered w)
    (h : readArray value budget cs = some (v, rest)) : IsOrdered v := by
  unfold readArray at h
  split at h
  · cases h
    exact .array nofun
  · obtain ⟨⟨vs, rest⟩, hr, he⟩ := Option.map_eq_some_iff.1 h
    cases he
    rw [readItems_eq_readList] at hr
    exact .array (forall_of_readList hvalue hr)

theorem isOrdered_of_readMember {value : Reader Json} {budget : Nat} {cs rest : List Char}
    {m : String × Json} (hvalue : ∀ cs w rest, value cs = some (w, rest) → IsOrdered w)
    (h : readMember value budget cs = some (m, rest)) : IsOrdered m.2 := by
  unfold readMember at h
  split at h
  · obtain ⟨⟨key, mid⟩, -, h⟩ := Option.bind_eq_some_iff.1 h
    simp only at h
    split at h
    · obtain ⟨⟨w, mid⟩, hw, h⟩ := Option.bind_eq_some_iff.1 h
      cases h
      exact hvalue _ _ _ hw
    · cases h
  · cases h

theorem isOrdered_of_readObject {value : Reader Json} {budget : Nat} {cs rest : List Char}
    {v : Json} (hvalue : ∀ cs w rest, value cs = some (w, rest) → IsOrdered w)
    (h : readObject value budget cs = some (v, rest)) : IsOrdered v := by
  unfold readObject at h
  split at h
  · cases h
    exact .object Members.ordered_nil nofun
  · obtain ⟨⟨ms, rest⟩, hr, he⟩ := Option.map_eq_some_iff.1 h
    cases he
    rw [readMembers_eq_readList] at hr
    have hall := forall_of_readList (fun _ _ _ h => isOrdered_of_readMember hvalue h) hr
    exact .object (Members.ordered_ofPairs ms) fun m hm => hall m (Members.mem_ofPairs hm)

theorem isOrdered_of_readValue {budget depth : Nat} {cs rest : List Char} {v : Json}
    (h : readValue budget depth cs = some (v, rest)) : IsOrdered v := by
  induction depth generalizing cs v rest with
  | zero => exact .atom (isContainer_of_readAtom h)
  | succ depth ih =>
    have hvalue : ∀ cs w rest, readValue budget depth cs = some (w, rest) → IsOrdered w :=
      fun _ _ _ h => ih h
    unfold readValue at h
    split at h
    · exact isOrdered_of_readArray hvalue h
    · exact isOrdered_of_readObject hvalue h
    · exact .atom (isContainer_of_readAtom h)

/-- What is read from a text has its objects in order. -/
theorem isOrdered_of_parse? {s : String} {v : Json} (h : parse? s = some v) : IsOrdered v := by
  unfold parse? parseChars? at h
  split at h
  · rename_i w rest hread
    split at h
    · cases h
      exact isOrdered_of_readValue hread
    · cases h
  · cases h

end RecordSieve.Json
