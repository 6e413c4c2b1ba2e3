/-!
Steps that can fail, one behind the other. A sequence of steps succeeds where each of them does,
with what those before it gave.
-/

namespace SettingsBinding.Steps

variable {ε α β : Type}

@[simp] theorem ok_bind (a : α) (f : α → Except ε β) : ((.ok a : Except ε α) >>= f) = f a := rfl

@[simp] theorem error_bind (e : ε) (f : α → Except ε β) :
    ((.error e : Except ε α) >>= f) = .error e := rfl

theorem bind_eq_ok_iff {step : Except ε α} {f : α → Except ε β} {b : β} :
    step >>= f = .ok b ↔ ∃ a, step = .ok a ∧ f a = .ok b := by
  cases step <;> simp

theorem mapError_eq_ok_iff {ε' : Type} {step : Except ε α} {f : ε → ε'} {a : α} :
    step.mapError f = .ok a ↔ step = .ok a := by
  cases step with
  | error e => exact ⟨nofun, nofun⟩
  | ok b =>
      exact ⟨fun h => congrArg Except.ok (Except.ok.inj h),
        fun h => congrArg Except.ok (Except.ok.inj h)⟩

theorem mapError_bind {ε' : Type} (step : Except ε α) (f : α → Except ε β) (g : ε → ε') :
    (step >>= f).mapError g = step.mapError g >>= fun a => (f a).mapError g := by
  cases step <;> rfl

theorem mapError_mapError {ε' ε'' : Type} (step : Except ε α) (f : ε → ε') (g : ε' → ε'') :
    (step.mapError f).mapError g = step.mapError (g ∘ f) := by
  cases step <;> rfl

theorem mapError_mapM {ε' : Type} (f : α → Except ε β) (g : ε → ε') (items : List α) :
    (items.mapM f).mapError g = items.mapM fun a => (f a).mapError g := by
  induction items with
  | nil => rfl
  | cons item items ih =>
      rw [List.mapM_cons, List.mapM_cons, mapError_bind]
      refine congrArg _ (funext fun b => ?_)
      rw [mapError_bind, ih]
      rfl

def error? : Except ε α → Option ε
  | .error e => some e
  | .ok _ => none

@[simp] theorem error?_error (e : ε) : error? (.error e : Except ε α) = some e := rfl

@[simp] theorem error?_ok (a : α) : error? (.ok a : Except ε α) = none := rfl

theorem error?_eq_some_iff {step : Except ε α} {e : ε} :
    error? step = some e ↔ step = .error e := by
  cases step <;> simp

theorem error?_eq_none_iff {step : Except ε α} : error? step = none ↔ ∃ a, step = .ok a := by
  cases step <;> simp

end SettingsBinding.Steps
