import RecordSieve.Sql.Reader
/-!
# RecordSieve.Proofs.Sql.Reader

How readers of tokens run. One equation for each step says what it gives on a list
of tokens, so that a reader can be run by rewriting; `bind_eq_ok_iff` takes a run
apart again.

Three properties are followed through readers as a whole. `Gives p Q` says of every
result of `p` that it has the property `Q`, whatever the tokens are; `Shallow p`
says that `p` never fails for depth, so a trial of it is always taken back; and
`StandsStill ts p` says that `p` gives something and takes none of the tokens `ts`.
-/

namespace RecordSieve
namespace Sql
namespace Reader

variable {α β : Type}

/-! ### Single steps -/

theorem bind_apply (p : Reader α) (f : α → Reader β) (ts : List Token) :
    (p >>= f) ts =
      match p ts with
      | .ok (a, us) => f a us
      | .error e => .error e := by
  show StateT.bind p f ts = _
  unfold StateT.bind
  cases p ts with
  | ok r => rfl
  | error e => rfl

theorem bind_of_ok {p : Reader α} {f : α → Reader β} {a : α} {ts us : List Token}
    (h : p ts = .ok (a, us)) : (p >>= f) ts = f a us := by
  rw [bind_apply, h]

theorem bind_of_error {p : Reader α} {f : α → Reader β} {e : Failure} {ts : List Token}
    (h : p ts = .error e) : (p >>= f) ts = .error e := by
  rw [bind_apply, h]

/-- A sequence reads what its first step leaves to its second. -/
theorem bind_eq_ok_iff {p : Reader α} {f : α → Reader β} {ts : List Token}
    {r : β × List Token} :
    (p >>= f) ts = .ok r ↔ ∃ a us, p ts = .ok (a, us) ∧ f a us = .ok r := by
  rw [bind_apply]
  constructor
  · intro h
    cases hp : p ts with
    | error e =>
      rw [hp] at h
      cases h
    | ok s =>
      rw [hp] at h
      exact ⟨s.1, s.2, rfl, h⟩
  · intro h
    obtain ⟨a, us, hp, hf⟩ := h
    rw [hp]
    exact hf

theorem pure_apply (a : α) (ts : List Token) : (pure a : Reader α) ts = .ok (a, ts) := rfl

theorem pure_eq_ok_iff {a : α} {ts : List Token} {r : α × List Token} :
    (pure a : Reader α) ts = .ok r ↔ r = (a, ts) := by
  rw [pure_apply, Except.ok.injEq, eq_comm]

theorem get_apply (ts : List Token) : (get : Reader (List Token)) ts = .ok (ts, ts) := rfl

theorem peekAt_apply (n : Nat) (ts : List Token) : peekAt n ts = .ok (ts[n]?, ts) := rfl

theorem peek_apply (ts : List Token) : peek ts = .ok (ts.head?, ts) := by
  cases ts <;> rfl

theorem next_nil : next [] = .error .grammar := rfl

theorem next_cons (t : Token) (ts : List Token) : next (t :: ts) = .ok (t, ts) := rfl

theorem next_eq_ok_iff {ts us : List Token} {t : Token} : next ts = .ok (t, us) ↔ ts = t :: us := by
  cases ts with
  | nil => simp [next_nil]
  | cons u ts => simp [next_cons]

theorem eatIf_of_true {p : Token → Bool} {t : Token} (h : p t = true) (ts : List Token) :
    eatIf p (t :: ts) = .ok (true, ts) := by
  show (if p t then _ else _ : Reader Bool) _ = _
  rw [if_pos h]
  rfl

theorem eatIf_of_false {p : Token → Bool} {t : Token} (h : p t = false) (ts : List Token) :
    eatIf p (t :: ts) = .ok (false, t :: ts) := by
  show (if p t then _ else _ : Reader Bool) _ = _
  rw [h]
  rfl

/-- Nothing is eaten when the token ahead has not the property, or there is none. -/
theorem eatIf_of_head {p : Token → Bool} {ts : List Token} (h : ts.head?.any p = false) :
    eatIf p ts = .ok (false, ts) := by
  cases ts with
  | nil => rfl
  | cons t ts => exact eatIf_of_false h ts

/-- Either the token ahead is eaten, or nothing is. -/
theorem eatIf_eq_ok {p : Token → Bool} {ts us : List Token} {b : Bool}
    (h : eatIf p ts = .ok (b, us)) :
    (b = true ∧ ∃ t, ts = t :: us ∧ p t = true) ∨
      (b = false ∧ us = ts ∧ ts.head?.any p = false) := by
  cases ts with
  | nil =>
    cases h
    exact .inr ⟨rfl, rfl, rfl⟩
  | cons t ts =>
    cases hp : p t with
    | true =>
      rw [eatIf_of_true hp] at h
      cases h
      exact .inl ⟨rfl, t, rfl, hp⟩
    | false =>
      rw [eatIf_of_false hp] at h
      cases h
      exact .inr ⟨rfl, rfl, hp⟩

theorem eatOneOf_of_head {ks : List String} {ts : List Token}
    (h : ∀ k ∈ ks, ts.head?.any (Token.isKeyword k) = false) :
    eatOneOf ks ts = .ok (none, ts) := by
  induction ks with
  | nil => rfl
  | cons k ks ih =>
    have hk : eatWord k ts = .ok (false, ts) := eatIf_of_head (h k List.mem_cons_self)
    rw [eatOneOf, bind_of_ok hk]
    exact ih fun k' hk' => h k' (List.mem_cons_of_mem k hk')

/-- Without any of the keywords ahead nothing is eaten, and otherwise one is. -/
theorem eatOneOf_eq_ok_none {ks : List String} {ts us : List Token}
    (h : eatOneOf ks ts = .ok (none, us)) :
    us = ts ∧ ∀ k ∈ ks, ts.head?.any (Token.isKeyword k) = false := by
  induction ks with
  | nil =>
    cases h
    exact ⟨rfl, by simp⟩
  | cons k ks ih =>
    obtain ⟨b, vs, hb, hf⟩ := bind_eq_ok_iff.1 h
    rcases eatIf_eq_ok hb with ⟨rfl, -⟩ | ⟨rfl, rfl, hk⟩
    · cases hf
    · obtain ⟨rfl, hks⟩ := ih hf
      exact ⟨rfl, List.forall_mem_cons.2 ⟨hk, hks⟩⟩

theorem atSymbol_apply (s : String) (ts : List Token) :
    atSymbol s ts = .ok (ts.head?.any (Token.isSymbol s), ts) := by
  cases ts <;> rfl

theorem atWord_apply (k : String) (ts : List Token) :
    atWord k ts = .ok (ts.head?.any (Token.isKeyword k), ts) := by
  cases ts <;> rfl

theorem eatWords_of_head {k : String} {ks : List String} {ts : List Token}
    (h : ts.head?.any (Token.isKeyword k) = false) :
    eatWords (k :: ks) ts = .ok (false, ts) := by
  have hs : startWith (k :: ks) ts = false := by
    cases ts with
    | nil => rfl
    | cons t ts => rw [startWith, show t.isKeyword k = false from h, Bool.false_and]
  show (if startWith (k :: ks) ts then _ else _ : Reader Bool) ts = _
  rw [hs]
  rfl

/-- Words that are not all ahead are left there. -/
theorem eatWords_eq_ok_false {ks : List String} {ts us : List Token}
    (h : eatWords ks ts = .ok (false, us)) : us = ts := by
  obtain ⟨vs, ws, hget, hset⟩ := bind_eq_ok_iff.1 h
  cases hget
  split at hset
  · cases hset
  · cases hset
    rfl

theorem expect_of_symbol (s : String) (ts : List Token) :
    expect s (.symbol s :: ts) = .ok (⟨⟩, ts) := by
  have h : eat s (.symbol s :: ts) = .ok (true, ts) :=
    eatIf_of_true (by simp [Token.isSymbol]) ts
  rw [expect, bind_of_ok h]
  rfl

theorem expect_of_head {s : String} {ts : List Token}
    (h : ts.head?.any (Token.isSymbol s) = false) : expect s ts = .error .grammar := by
  have he : eat s ts = .ok (false, ts) := eatIf_of_head h
  rw [expect, bind_of_ok he]
  rfl

theorem isSymbol_iff {s : String} {t : Token} : t.isSymbol s = true ↔ t = .symbol s := by
  cases t with
  | symbol u => simp [Token.isSymbol]
  | _ => simp [Token.isSymbol]

/-- An expected symbol is there. -/
theorem expect_eq_ok {s : String} {ts us : List Token} {u : PUnit}
    (h : expect s ts = .ok (u, us)) : ts = .symbol s :: us := by
  obtain ⟨b, vs, hb, hf⟩ := bind_eq_ok_iff.1 h
  rcases eatIf_eq_ok hb with ⟨rfl, t, rfl, ht⟩ | ⟨rfl, rfl, -⟩
  · cases hf
    rw [isSymbol_iff.1 ht]
  · cases hf

/-! ### Trials -/

theorem attempt_of_grammar {p : Reader α} {ts : List Token} (h : p ts = .error .grammar) :
    attempt p ts = .ok (none, ts) := by
  rw [attempt, h]

/-- A trial gives what was tried, or takes a misfit back. -/
theorem attempt_eq_ok {p : Reader α} {ts us : List Token} {o : Option α}
    (h : attempt p ts = .ok (o, us)) :
    (∃ a, o = some a ∧ p ts = .ok (a, us)) ∨ (o = none ∧ us = ts ∧ p ts = .error .grammar) := by
  unfold attempt at h
  split at h
  · rename_i a rest hp
    cases h
    exact .inl ⟨a, rfl, hp⟩
  · rename_i hp
    cases h
    exact .inr ⟨rfl, rfl, hp⟩
  · cases h

theorem orInstead_of_ok {p q : Reader α} {ts : List Token} {r : α × List Token}
    (h : p ts = .ok r) : orInstead p q ts = .ok r := by
  rw [orInstead, h]

theorem orInstead_of_error {p q : Reader α} {ts : List Token} {e : Failure} {r : α × List Token}
    (hp : p ts = .error e) (hq : q ts = .ok r) : orInstead p q ts = .ok r := by
  rw [orInstead, hp]
  simp only [hq]

/-- A choice gives the first reading, or the second one where there is no first. -/
theorem orInstead_eq_ok {p q : Reader α} {ts : List Token} {r : α × List Token}
    (h : orInstead p q ts = .ok r) :
    p ts = .ok r ∨ ((p ts).isOk = false ∧ q ts = .ok r) := by
  unfold orInstead at h
  split at h
  · rename_i s hp
    cases h
    exact .inl hp
  · rename_i e hp
    split at h
    · rename_i s hq
      cases h
      exact .inr ⟨by rw [hp]; rfl, hq⟩
    · cases h

/-! ### Lists -/

/-- Items between commas, each read by `p`. -/
inductive Separated (p : Reader α) : List Token → List α → List Token → Prop
  | one {ts us : List Token} {a : α} : p ts = .ok (a, us) → Separated p ts [a] us
  | cons {ts us vs : List Token} {a : α} {as : List α} :
      p ts = .ok (a, .symbol "," :: us) → Separated p us as vs → Separated p ts (a :: as) vs

/-- A list that is read is one item or more between commas. -/
theorem commaList_eq_ok {p : Reader α} {ts us : List Token} {as : List α}
    (h : commaList p ts = .ok (as, us)) : Separated p ts as us := by
  suffices hn : ∀ n ts as, sepByWithin (eat ",") p n ts = .ok (as, us) → Separated p ts as us by
    rw [commaList, sepBy, bind_of_ok (get_apply ts)] at h
    exact hn _ _ _ h
  intro n
  induction n with
  | zero =>
    intro ts as h
    cases h
  | succ n ih =>
    intro ts as h
    obtain ⟨a, vs, ha, hmore⟩ := bind_eq_ok_iff.1 h
    obtain ⟨b, ws, hb, hr⟩ := bind_eq_ok_iff.1 hmore
    rcases eatIf_eq_ok hb with ⟨rfl, t, rfl, ht⟩ | ⟨rfl, rfl, -⟩
    · rw [if_pos rfl] at hr
      obtain ⟨bs, xs, hbs, hlist⟩ := bind_eq_ok_iff.1 hr
      cases hlist
      rw [isSymbol_iff.1 ht] at ha
      exact .cons ha (ih _ _ hbs)
    · rw [if_neg Bool.false_ne_true] at hr
      cases hr
      exact .one ha

/-! ### Properties of all results -/

/-- Every result of a reader has a property. -/
def Gives (p : Reader α) (Q : α → Prop) : Prop := ∀ ts a us, p ts = .ok (a, us) → Q a

namespace Gives

variable {Q : α → Prop} {p q : Reader α}

theorem pure {a : α} (h : Q a) : Gives (pure a) Q := by
  intro ts b us hb
  cases hb
  exact h

theorem fail : Gives (fail : Reader α) Q := by
  intro ts a us h
  cases h

theorem bind {p : Reader β} {f : β → Reader α} (h : ∀ b, Gives (f b) Q) : Gives (p >>= f) Q := by
  intro ts a us ha
  obtain ⟨b, vs, -, hb⟩ := bind_eq_ok_iff.1 ha
  exact h b vs a us hb

/-- The property of a first step's results may be used for the second. -/
theorem bind_of {R : β → Prop} {p : Reader β} {f : β → Reader α} (hp : Gives p R)
    (hf : ∀ b, R b → Gives (f b) Q) : Gives (p >>= f) Q := by
  intro ts a us ha
  obtain ⟨b, vs, hb, hr⟩ := bind_eq_ok_iff.1 ha
  exact hf b (hp ts b vs hb) vs a us hr

theorem ite {c : Prop} [Decidable c] (hp : Gives p Q) (hq : Gives q Q) :
    Gives (if c then p else q) Q := by
  by_cases h : c
  · rwa [if_pos h]
  · rwa [if_neg h]

theorem orInstead (hp : Gives p Q) (hq : Gives q Q) : Gives (orInstead p q) Q := by
  intro ts a us h
  rcases orInstead_eq_ok h with h | ⟨-, h⟩
  · exact hp ts a us h
  · exact hq ts a us h

end Gives

/-! ### Readers that take nothing -/

/-- A reader gives something in front of some tokens and takes none of them. -/
def StandsStill (ts : List Token) (p : Reader α) : Prop := ∃ a, p ts = .ok (a, ts)

namespace StandsStill

variable {p q : Reader α} {ts : List Token}

theorem pure (a : α) : StandsStill ts (pure a : Reader α) := ⟨a, rfl⟩

theorem bind {a : α} {f : α → Reader β} (hp : p ts = .ok (a, ts)) (hf : StandsStill ts (f a)) :
    StandsStill ts (p >>= f) := by
  obtain ⟨b, hb⟩ := hf
  exact ⟨b, (bind_of_ok hp).trans hb⟩

theorem ite {c : Prop} [Decidable c] (hp : StandsStill ts p) (hq : StandsStill ts q) :
    StandsStill ts (if c then p else q) := by
  by_cases h : c
  · rwa [if_pos h]
  · rwa [if_neg h]

end StandsStill

/-! ### Readers that do not nest -/

/-- A reader never fails for depth. -/
def Shallow (p : Reader α) : Prop := ∀ ts, p ts ≠ .error .depth

namespace Shallow

variable {p q : Reader α}

theorem pure (a : α) : Shallow (pure a : Reader α) := fun _ h => nomatch h

theorem fail : Shallow (fail : Reader α) := fun _ h => nomatch h

theorem get : Shallow (get : Reader (List Token)) := fun _ h => nomatch h

theorem bind {f : α → Reader β} (hp : Shallow p) (hf : ∀ a, Shallow (f a)) :
    Shallow (p >>= f) := by
  intro ts h
  rw [bind_apply] at h
  cases hr : p ts with
  | ok r =>
    rw [hr] at h
    exact hf r.1 r.2 h
  | error e =>
    rw [hr] at h
    cases h
    exact hp ts hr

theorem ite {c : Prop} [Decidable c] (hp : Shallow p) (hq : Shallow q) :
    Shallow (if c then p else q) := by
  by_cases h : c
  · rwa [if_pos h]
  · rwa [if_neg h]

theorem next : Shallow next := by
  intro ts h
  cases ts with
  | nil => cases h
  | cons t ts => cases h

theorem eatIf (p : Token → Bool) : Shallow (eatIf p) := by
  intro ts h
  cases ts with
  | nil => cases h
  | cons t ts =>
    cases hp : p t with
    | true =>
      rw [eatIf_of_true hp] at h
      cases h
    | false =>
      rw [eatIf_of_false hp] at h
      cases h

theorem eat (s : String) : Shallow (eat s) := eatIf _

theorem expect (s : String) : Shallow (expect s) :=
  .bind (eat s) fun _ => .ite fail (.pure _)

theorem sepByWithin {more : Reader Bool} (hm : Shallow more) (hp : Shallow p) (n : Nat) :
    Shallow (sepByWithin more p n) := by
  induction n with
  | zero => exact fail
  | succ n ih =>
    exact .bind hp fun _ => .bind hm fun _ => .ite (.bind ih fun _ => .pure _) (.pure _)

theorem sepBy {more : Reader Bool} (hm : Shallow more) (hp : Shallow p) :
    Shallow (sepBy more p) :=
  .bind get fun _ => sepByWithin hm hp _

theorem commaList (hp : Shallow p) : Shallow (commaList p) := sepBy (eat ",") hp

theorem commaListUpTo (close : String) (hp : Shallow p) : Shallow (commaListUpTo close p) :=
  .bind (eat close) fun _ => .ite (.pure _)
    (.bind (commaList hp) fun _ => .bind (expect close) fun _ => .pure _)

theorem attempt (hp : Shallow p) : Shallow (attempt p) := by
  intro ts h
  unfold Reader.attempt at h
  split at h
  · cases h
  · cases h
  · rename_i hd
    exact hp ts hd

/-- A misfit is the only failure. -/
theorem eq_grammar (hp : Shallow p) {ts : List Token} {e : Failure} (h : p ts = .error e) :
    p ts = .error .grammar := by
  cases e with
  | grammar => exact h
  | depth => exact absurd h (hp ts)

end Shallow

end Reader
end Sql
end RecordSieve
