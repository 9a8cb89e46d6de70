/-!
# Outcomes

A step that fails leaves a state behind all the same.  An outcome is that state together with the
error, if there was one.
-/

set_option autoImplicit false

namespace BoundsCheck

/-- The state a step leaves, and the error that cut it short. -/
structure Outcome (ε σ : Type) where
  state : σ
  error? : Option ε := none
deriving DecidableEq, Repr

namespace Outcome

variable {ε ε' σ τ : Type}

/-- The step went through. -/
@[inline] def ok (state : σ) : Outcome ε σ := ⟨state, none⟩

/-- The step was cut short. -/
@[inline] def fail (state : σ) (error : ε) : Outcome ε σ := ⟨state, some error⟩

/-- Goes on with another step, unless the first one was cut short. -/
@[inline] def andThen (o : Outcome ε σ) (next : σ → Outcome ε σ) : Outcome ε σ :=
  match o.error? with
  | none => next o.state
  | some _ => o

/-- Changes the state that was left. -/
@[inline] def map (f : σ → τ) (o : Outcome ε σ) : Outcome ε τ := ⟨f o.state, o.error?⟩

/-- Changes the error. -/
@[inline] def mapError (f : ε → ε') (o : Outcome ε σ) : Outcome ε' σ := ⟨o.state, o.error?.map f⟩

/-! ## Steps that go through -/

@[simp] theorem state_ok (s : σ) : (ok s : Outcome ε σ).state = s := rfl

@[simp] theorem error?_ok (s : σ) : (ok s : Outcome ε σ).error? = none := rfl

@[simp] theorem state_fail (s : σ) (e : ε) : (fail s e).state = s := rfl

@[simp] theorem error?_fail (s : σ) (e : ε) : (fail s e).error? = some e := rfl

@[simp] theorem state_map (f : σ → τ) (o : Outcome ε σ) : (o.map f).state = f o.state := rfl

@[simp] theorem error?_map (f : σ → τ) (o : Outcome ε σ) : (o.map f).error? = o.error? := rfl

@[simp] theorem state_mapError (f : ε → ε') (o : Outcome ε σ) :
    (o.mapError f).state = o.state := rfl

@[simp] theorem error?_mapError (f : ε → ε') (o : Outcome ε σ) :
    (o.mapError f).error? = o.error?.map f := rfl

theorem andThen_of_none {o : Outcome ε σ} (h : o.error? = none) (next : σ → Outcome ε σ) :
    o.andThen next = next o.state := by
  rw [andThen, h]

/-- What both steps keep is kept, however far the first one gets. -/
theorem andThen_keeps {P : σ → Prop} {o : Outcome ε σ} {next : σ → Outcome ε σ} (h : P o.state)
    (hnext : ∀ s, P s → P (next s).state) : P (o.andThen next).state := by
  rw [andThen]
  split
  · exact hnext _ h
  · exact h

end Outcome

end BoundsCheck
