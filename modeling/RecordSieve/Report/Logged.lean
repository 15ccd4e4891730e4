import RecordSieve.Report.Event
/-!
# RecordSieve.Report.Logged

A value together with the events that were reported on the way to it. Events of
a sequence of steps follow one another in the order of the steps.
-/

namespace RecordSieve

/-- A value and the events reported on the way to it. -/
structure Logged (α : Type) where
  value : α
  events : List Event

namespace Logged

instance : Monad Logged where
  pure a := ⟨a, []⟩
  bind x f := ⟨(f x.value).value, x.events ++ (f x.value).events⟩

/-- Reports one event. -/
def report (e : Event) : Logged Unit := ⟨(), [e]⟩

@[ext] theorem ext {α : Type} {x y : Logged α} (hv : x.value = y.value)
    (he : x.events = y.events) : x = y := by
  cases x; cases y; simp_all

@[simp] theorem value_pure {α : Type} (a : α) : (pure a : Logged α).value = a := rfl

@[simp] theorem events_pure {α : Type} (a : α) : (pure a : Logged α).events = [] := rfl

@[simp] theorem value_bind {α β : Type} (x : Logged α) (f : α → Logged β) :
    (x >>= f).value = (f x.value).value := rfl

@[simp] theorem events_bind {α β : Type} (x : Logged α) (f : α → Logged β) :
    (x >>= f).events = x.events ++ (f x.value).events := rfl

@[simp] theorem events_report (e : Event) : (report e).events = [e] := rfl

instance : LawfulMonad Logged := LawfulMonad.mk' Logged
  (fun x => by ext1 <;> simp [Functor.map])
  (fun a f => by ext1 <;> simp)
  (fun x f g => by ext1 <;> simp)

@[simp] theorem value_map {α β : Type} (g : α → β) (x : Logged α) :
    (g <$> x).value = g x.value := rfl

@[simp] theorem events_map {α β : Type} (g : α → β) (x : Logged α) :
    (g <$> x).events = x.events := List.append_nil _

end Logged
end RecordSieve
