import RecordSieve.Json.Parser
import RecordSieve.Json.Printer
/-!
# RecordSieve.Proofs.Json.Layout

The texts of a value. `LaidOut v cs` says that `cs` is the compact text of `v` with
space between its tokens, around it, or nowhere: the printer's own text is one such
text (`laidOut_render`), and the lines of a file of records are another
(`LaidOut.rows`).
-/

namespace RecordSieve.Json

/-- Whether a value holds further values. -/
def isContainer : Json → Bool
  | array _ | object _ => true
  | _ => false

/-- Induction over a value: what holds of values without parts, and of a container if
it holds of its parts, holds of every value. -/
@[elab_as_elim]
theorem ind {motive : Json → Prop} (atom : ∀ v : Json, v.isContainer = false → motive v)
    (array : ∀ vs : List Json, (∀ v ∈ vs, motive v) → motive (.array vs))
    (object : ∀ ms : Members, (∀ m ∈ ms, motive m.2) → motive (.object ms)) (v : Json) :
    motive v :=
  match v with
  | .array vs => array vs fun v _ => ind atom array object v
  | .object ms => object ms fun m _ => ind atom array object m.2
  | .null => atom _ rfl
  | .boolean _ => atom _ rfl
  | .number _ => atom _ rfl
  | .string _ => atom _ rfl
termination_by sizeOf v
decreasing_by
  · rename_i h
    have := List.sizeOf_lt_of_mem h
    simp +arith
    omega
  · rename_i h
    obtain ⟨k, v⟩ := m
    have := List.sizeOf_lt_of_mem h
    simp +arith at this ⊢
    omega

/-! ### Texts between commas -/

/-- Texts with commas between them. -/
def commas : List (List Char) → List Char
  | [] => []
  | [t] => t
  | t :: ts => t ++ ',' :: commas ts

theorem commas_cons_cons (t u : List Char) (ts : List (List Char)) :
    commas (t :: u :: ts) = t ++ ',' :: commas (u :: ts) := rfl

theorem renderItems_eq_commas (vs : List Json) : renderItems vs = commas (vs.map render) := by
  induction vs with
  | nil => rfl
  | cons v vs ih =>
    cases vs with
    | nil => rfl
    | cons w vs =>
      rw [List.map_cons] at ih
      rw [List.map_cons, List.map_cons, commas_cons_cons, ← ih]
      simp [renderItems]

/-- The text of a member from its key and the text of its value. -/
def memberText (key : String) (text : List Char) : List Char :=
  renderString key.toList ++ ':' :: text

theorem renderMembers_eq_commas (ms : Members) :
    renderMembers ms = commas (ms.map fun m => memberText m.1 m.2.render) := by
  induction ms with
  | nil => rfl
  | cons m ms ih =>
    obtain ⟨k, v⟩ := m
    cases ms with
    | nil => rfl
    | cons n ms =>
      rw [List.map_cons] at ih
      rw [List.map_cons, List.map_cons, commas_cons_cons, ← ih]
      simp [renderMembers, memberText]

/-! ### Laid out values -/

/-- A member of an object with the text of its value and the space before its key. -/
structure LaidMember where
  space : List Char
  key : String
  value : Json
  text : List Char

/-- The text of a member. -/
def LaidMember.laid (m : LaidMember) : List Char := m.space ++ memberText m.key m.text

/-- The member that is laid out. -/
def LaidMember.member (m : LaidMember) : String × Json := (m.key, m.value)

/-- The compact text of a value with space before and behind its tokens. -/
inductive LaidOut : Json → List Char → Prop
  | atom {v : Json} (h : v.isContainer = false) : LaidOut v v.render
  | array {items : List (Json × List Char)} {front back : List Char}
      (hfront : ∀ c ∈ front, isSpace c = true) (h : ∀ p ∈ items, LaidOut p.1 p.2)
      (hback : ∀ c ∈ back, isSpace c = true) :
      LaidOut (array (items.map Prod.fst))
        ('[' :: (front ++ (commas (items.map Prod.snd) ++ (back ++ [']']))))
  | object {members : List LaidMember}
      (hspace : ∀ m ∈ members, ∀ c ∈ m.space, isSpace c = true)
      (h : ∀ m ∈ members, LaidOut m.value m.text) :
      LaidOut (object (members.map LaidMember.member))
        ('\x7b' :: (commas (members.map LaidMember.laid) ++ ['\x7d']))
  | before {v : Json} {cs : List Char} {c : Char} (hc : isSpace c = true) (h : LaidOut v cs) :
      LaidOut v (c :: cs)
  | behind {v : Json} {cs : List Char} {c : Char} (hc : isSpace c = true) (h : LaidOut v cs) :
      LaidOut v (cs ++ [c])

/-- The printer writes no space. -/
theorem laidOut_render (v : Json) : LaidOut v v.render := by
  induction v using ind with
  | atom v h => exact .atom h
  | array vs ih =>
    have h := @LaidOut.array (vs.map fun v => (v, v.render)) [] [] nofun
      (List.forall_mem_map.2 ih) nofun
    rw [List.map_map, List.map_map, List.nil_append, List.nil_append] at h
    rw [render, renderItems_eq_commas]
    simpa [Function.comp_def] using h
  | object ms ih =>
    have h := @LaidOut.object (ms.map fun m => ⟨[], m.1, m.2, m.2.render⟩)
      (List.forall_mem_map.2 fun _ _ => nofun) (List.forall_mem_map.2 ih)
    rw [List.map_map, List.map_map] at h
    rw [render, renderMembers_eq_commas]
    simpa [Function.comp_def, LaidMember.member, LaidMember.laid] using h

namespace LaidOut

variable {v : Json} {cs space : List Char}

theorem spaceBefore (h : LaidOut v cs) (hspace : ∀ c ∈ space, isSpace c = true) :
    LaidOut v (space ++ cs) := by
  induction space with
  | nil => exact h
  | cons c space ih =>
    exact .before (hspace c List.mem_cons_self) (ih fun d hd => hspace d (List.mem_cons_of_mem _ hd))

theorem spaceBehind (h : LaidOut v cs) (hspace : ∀ c ∈ space, isSpace c = true) :
    LaidOut v (cs ++ space) := by
  induction space generalizing cs with
  | nil => rwa [List.append_nil]
  | cons c space ih =>
    have hc := ih (h.behind (hspace c List.mem_cons_self)) fun d hd =>
      hspace d (List.mem_cons_of_mem _ hd)
    rwa [List.append_assoc] at hc

/-- Items on lines of their own, between the brackets of an array. -/
theorem rows {items : List (Json × List Char)} {front back : List Char}
    (hfront : ∀ c ∈ front, isSpace c = true) (h : ∀ p ∈ items, LaidOut p.1 p.2)
    (hback : ∀ c ∈ back, isSpace c = true) :
    LaidOut (Json.array (items.map Prod.fst))
      ('[' :: (front ++ ([',', '\n'].intercalate (items.map Prod.snd) ++ (back ++ [']'])))) := by
  have hcommas : ∀ (t : List Char) (ts : List (List Char)),
      [',', '\n'].intercalate (t :: ts) = commas (t :: ts.map ('\n' :: ·)) := by
    intro t ts
    induction ts generalizing t with
    | nil => simp [commas]
    | cons u ts ih =>
      rw [List.intercalate_cons_cons, ih, List.map_cons, commas_cons_cons]
      cases ts with
      | _ => simp [commas]
  cases items with
  | nil => exact @LaidOut.array [] front back hfront nofun hback
  | cons p items =>
    -- The line feed behind a comma is space in front of the next item.
    have hall : ∀ q ∈ p :: items.map fun q => (q.1, '\n' :: q.2), LaidOut q.1 q.2 := by
      refine List.forall_mem_cons.2 ⟨h p List.mem_cons_self, List.forall_mem_map.2 fun q hq => ?_⟩
      exact (h q (List.mem_cons_of_mem _ hq)).before rfl
    have hlaid := LaidOut.array hfront hall hback
    simp only [List.map_cons, List.map_map, Function.comp_def] at hlaid
    rw [List.map_cons, List.map_cons, hcommas, List.map_map]
    exact hlaid

/-- Two members with the same space before their keys. -/
theorem pair {space text₁ text₂ : List Char} {value₁ value₂ : Json}
    (hspace : ∀ c ∈ space, isSpace c = true) (h₁ : LaidOut value₁ text₁)
    (h₂ : LaidOut value₂ text₂) (key₁ key₂ : String) :
    LaidOut (Json.object [(key₁, value₁), (key₂, value₂)])
      ('\x7b' :: (space ++ memberText key₁ text₁ ++ ',' :: (space ++ memberText key₂ text₂) ++
        ['\x7d'])) :=
  @LaidOut.object [⟨space, key₁, value₁, text₁⟩, ⟨space, key₂, value₂, text₂⟩]
    (List.forall_mem_cons.2 ⟨hspace, List.forall_mem_singleton.2 hspace⟩)
    (List.forall_mem_cons.2 ⟨h₁, List.forall_mem_singleton.2 h₂⟩)

end LaidOut
end RecordSieve.Json
