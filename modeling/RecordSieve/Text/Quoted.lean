/-!
# RecordSieve.Text.Quoted

Quoted text: a quote character, the body, the quote character again, where each
quote character of the body is written twice. Both the writer (`encode`) and the
reader (`scan`) are here; a reader that stops at the first quote not followed by
another one recovers every body.
-/

namespace RecordSieve.Text.Quoted

/-- The body with each `q` written twice. -/
def escape (q : Char) : List Char → List Char
  | [] => []
  | c :: cs => if c = q then q :: q :: escape q cs else c :: escape q cs

/-- The written form: the escaped body between two `q`. -/
def encode (q : Char) (body : List Char) : List Char :=
  q :: (escape q body ++ [q])

/-- Reads a body up to its closing `q`, the opening one being consumed already:
the unescaped body and the text after the closing quote, or nothing when the
quote is never closed. -/
def scan (q : Char) : List Char → Option (List Char × List Char)
  | [] => none
  | [c] => if c = q then some ([], []) else none
  | c :: d :: cs =>
    if c = q then
      if d = q then (scan q cs).map fun r => (q :: r.1, r.2) else some ([], d :: cs)
    else (scan q (d :: cs)).map fun r => (c :: r.1, r.2)

@[simp] theorem escape_nil (q : Char) : escape q [] = [] := rfl

theorem escape_cons_quote (q : Char) (cs : List Char) :
    escape q (q :: cs) = q :: q :: escape q cs := by simp [escape]

theorem escape_cons_other {q c : Char} (h : c ≠ q) (cs : List Char) :
    escape q (c :: cs) = c :: escape q cs := by simp [escape, h]

/-- What is read after the closing quote is a proper end of the input. -/
theorem length_lt_of_scan {q : Char} {cs : List Char} {r : List Char × List Char}
    (h : scan q cs = some r) : r.2.length < cs.length := by
  fun_induction scan q cs generalizing r with
  | case1 => simp at h
  | case2 => simp at h; subst h; simp
  | case3 => simp at h
  | case4 cs ih =>
    obtain ⟨s, hs, rfl⟩ := Option.map_eq_some_iff.1 h
    have := ih hs
    simp only [List.length_cons]; omega
  | case5 => simp at h; subst h; simp
  | case6 c d cs _ ih =>
    obtain ⟨s, hs, rfl⟩ := Option.map_eq_some_iff.1 h
    have := ih hs
    simp only [List.length_cons] at this ⊢; omega

/-- An escaped body is read back whole, whatever follows, as long as no quote
character follows the closing one. -/
theorem scan_escape (q : Char) (body rest : List Char) (h : rest.head? ≠ some q) :
    scan q (escape q body ++ q :: rest) = some (body, rest) := by
  induction body with
  | nil =>
    cases rest with
    | nil => simp [scan]
    | cons d ds =>
      have hd : d ≠ q := fun e => h (by simp [e])
      simp [scan, hd]
  | cons c cs ih =>
    by_cases hc : c = q
    · subst hc
      simp [escape_cons_quote, scan, ih]
    · rw [escape_cons_other hc, List.cons_append]
      obtain ⟨d, ds, hd⟩ : ∃ d ds, escape q cs ++ q :: rest = d :: ds := by
        cases hcs : escape q cs ++ q :: rest with
        | nil => simp at hcs
        | cons d ds => exact ⟨d, ds, rfl⟩
      rw [hd, scan, if_neg hc, ← hd, ih]
      rfl

end RecordSieve.Text.Quoted
