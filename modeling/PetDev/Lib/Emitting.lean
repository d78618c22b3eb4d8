import Mathlib.Order.Basic

/-!
# Calls that emit and may throw

An `Emitting ε α` is what a call comes to: what it has emitted, in order, and its value, `none` if
it has thrown.  What was emitted before an exception stays emitted, also when a handler goes on.
-/

namespace PetDev

/-- A call with its emissions. -/
structure Emitting (ε α : Type*) where
  emitted : List ε
  value : Option α

namespace Emitting

variable {ε α β : Type*}

def return_ (a : α) : Emitting ε α := ⟨[], some a⟩

def throw : Emitting ε α := ⟨[], none⟩

def emit (e : ε) : Emitting ε Unit := ⟨[e], some ()⟩

/-- A value that may be an exception. -/
def ofOption (a : Option α) : Emitting ε α := ⟨[], a⟩

/-- One call after the other. -/
def andThen (x : Emitting ε α) (f : α → Emitting ε β) : Emitting ε β :=
  match x.value with
  | some a => ⟨x.emitted ++ (f a).emitted, (f a).value⟩
  | none => ⟨x.emitted, none⟩

/-- `try { x } catch { handler }`. -/
def catching (x handler : Emitting ε α) : Emitting ε α :=
  match x.value with
  | some _ => x
  | none => ⟨x.emitted ++ handler.emitted, handler.value⟩

theorem andThen_of_some {x : Emitting ε α} {a : α} (h : x.value = some a) (f : α → Emitting ε β) :
    x.andThen f = ⟨x.emitted ++ (f a).emitted, (f a).value⟩ := by
  unfold andThen
  rw [h]

theorem andThen_of_none {x : Emitting ε α} (h : x.value = none) (f : α → Emitting ε β) :
    x.andThen f = ⟨x.emitted, none⟩ := by
  unfold andThen
  rw [h]

theorem value_andThen_return (x : Emitting ε α) : (x.andThen return_).value = x.value := by
  unfold andThen
  cases x.value <;> rfl

theorem andThen_assoc {γ : Type*} (x : Emitting ε α) (f : α → Emitting ε β)
    (g : β → Emitting ε γ) :
    (x.andThen f).andThen g = x.andThen fun a => (f a).andThen g := by
  obtain ⟨es, value⟩ := x
  cases value with
  | none => rfl
  | some a =>
    cases h : (f a).value with
    | none => simp [andThen, h]
    | some b => simp [andThen, h]

theorem catching_of_some {x : Emitting ε α} {a : α} (h : x.value = some a)
    (handler : Emitting ε α) : x.catching handler = x := by
  unfold catching
  rw [h]

theorem catching_of_none {x : Emitting ε α} (h : x.value = none) (handler : Emitting ε α) :
    x.catching handler = ⟨x.emitted ++ handler.emitted, handler.value⟩ := by
  unfold catching
  rw [h]

/-- A handler that emits nothing hides the exception, and no more. -/
theorem emitted_catching_return (x : Emitting ε α) (a : α) :
    (x.catching (return_ a)).emitted = x.emitted := by
  unfold catching
  cases x.value with
  | none => exact List.append_nil _
  | some b => rfl

/-- Then the whole returns. -/
theorem exists_value_catching_return (x : Emitting ε α) (a : α) :
    ∃ b, (x.catching (return_ a)).value = some b := by
  cases h : x.value with
  | none => exact ⟨a, by rw [catching_of_none h]; rfl⟩
  | some b => exact ⟨b, by rw [catching_of_some h, h]⟩

end Emitting

end PetDev
