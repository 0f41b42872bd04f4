import TokenAudit.Log.Event

/-!
# Logged computations

A logged value comes with the events told on the way to it, in order.  Sequencing two computations
puts their events one after the other.
-/

namespace TokenAudit

/-- A value and the events told on the way to it. -/
structure Logged (α : Type) where
  value : α
  events : List Log.Event := []

namespace Logged

instance : Monad Logged where
  pure value := ⟨value, []⟩
  bind x f :=
    let y := f x.value
    ⟨y.value, x.events ++ y.events⟩

/-- Tells one event. -/
def tell (event : Log.Event) : Logged Unit := ⟨(), [event]⟩

@[simp] theorem value_pure {α : Type} (a : α) : (pure a : Logged α).value = a := rfl

@[simp] theorem events_pure {α : Type} (a : α) : (pure a : Logged α).events = [] := rfl

@[simp] theorem value_bind {α β : Type} (x : Logged α) (f : α → Logged β) :
    (x >>= f).value = (f x.value).value := rfl

@[simp] theorem events_bind {α β : Type} (x : Logged α) (f : α → Logged β) :
    (x >>= f).events = x.events ++ (f x.value).events := rfl

@[simp] theorem value_map {α β : Type} (f : α → β) (x : Logged α) :
    (f <$> x).value = f x.value := rfl

@[simp] theorem events_map {α β : Type} (f : α → β) (x : Logged α) :
    (f <$> x).events = x.events := List.append_nil _

@[simp] theorem events_tell (event : Log.Event) : (tell event).events = [event] := rfl

/-- A logged value is determined by the value and its events. -/
theorem ext_events {α : Type} {x y : Logged α} (hvalue : x.value = y.value)
    (hevents : x.events = y.events) : x = y := by
  cases x
  cases y
  simp_all

instance : LawfulMonad Logged := LawfulMonad.mk' Logged
  (fun _ => ext_events rfl (List.append_nil _))
  (fun _ _ => ext_events rfl (List.nil_append _))
  (fun _ _ _ => ext_events rfl (List.append_assoc _ _ _))

end Logged

end TokenAudit
