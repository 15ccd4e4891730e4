/-!
# RecordSieve.Query.KeyIndex

A set of keys kept as a sorted array and searched by halving. Membership lists are
built once per clause and searched once per record.

Which keys are dropped as repetitions need not agree with the order that sorts and
searches them: the numbers of a list are compared by value when repetitions are
dropped, so a NaN that is written twice stays there twice.
-/

namespace RecordSieve

/-- A sorted array of keys. -/
structure KeyIndex (κ : Type) where
  keys : Array κ
deriving DecidableEq

namespace KeyIndex

variable {κ : Type} [Ord κ]

/-- The index of a list of keys: they are sorted, and of neighbours that are the
`same` the first one is kept. -/
def ofList (same : κ → κ → Bool) (ks : List κ) : KeyIndex κ :=
  ⟨((ks.mergeSort fun a b => (compare a b).isLE).eraseRepsBy same).toArray⟩

/-- Looks for `k` among the keys at positions `lo` to `hi - 1`, comparing with
the middle one and going on in the half that can still hold it. -/
def search (keys : Array κ) (k : κ) (lo hi : Nat) (h : hi ≤ keys.size) : Bool :=
  if hlt : lo < hi then
    let mid := lo + (hi - lo) / 2
    match compare keys[mid] k with
    | .eq => true
    | .lt => search keys k (mid + 1) hi h
    | .gt => search keys k lo mid (by omega)
  else false
termination_by hi - lo

/-- Whether a key is in the index. -/
def contains (ix : KeyIndex κ) (k : κ) : Bool :=
  search ix.keys k 0 ix.keys.size (Nat.le_refl _)

end KeyIndex
end RecordSieve
