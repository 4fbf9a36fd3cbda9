import Rulebook.Failure

/-!
# Programs

A program changes a state and gives a result or fails.  The state that it leaves behind is there in
both cases: a failure by itself takes nothing back.

## Main definitions

* `Program` — the computations on states of one type.
* `Program.runOn` — the result of a program and the state that it leaves behind.
* `Program.ofExcept` — a computation that does not touch the state.
-/

namespace Rulebook

/-- Computations that change a state and may fail. -/
abbrev Program (σ : Type) := ExceptT Failure (StateM σ)

namespace Program

variable {σ α β : Type}

/-- A program from its effect on states. -/
def of (f : σ → Except Failure α × σ) : Program σ α := f

/-- The result of a program and the state that it leaves behind. -/
def runOn (act : Program σ α) (s : σ) : Except Failure α × σ := act s

/-- The result of a computation that does not touch the state. -/
def ofExcept (r : Except Failure α) : Program σ α := of fun s => (r, s)

/-! ## What running gives -/

@[simp] theorem runOn_of (f : σ → Except Failure α × σ) (s : σ) : (of f).runOn s = f s := rfl

@[simp] theorem runOn_ofExcept (r : Except Failure α) (s : σ) :
    (ofExcept r : Program σ α).runOn s = (r, s) := rfl

@[simp] theorem runOn_pure (a : α) (s : σ) : (pure a : Program σ α).runOn s = (.ok a, s) := rfl

@[simp] theorem runOn_throw (failure : Failure) (s : σ) :
    (throw failure : Program σ α).runOn s = (.error failure, s) := rfl

@[simp] theorem runOn_get (s : σ) : (get : Program σ σ).runOn s = (.ok s, s) := rfl

@[simp] theorem runOn_modify (f : σ → σ) (s : σ) :
    (modify f : Program σ PUnit).runOn s = (.ok ⟨⟩, f s) := rfl

/-- A failure ends a sequence. -/
theorem runOn_bind (x : Program σ α) (f : α → Program σ β) (s : σ) :
    (x >>= f).runOn s =
      match x.runOn s with
      | (.ok a, t) => (f a).runOn t
      | (.error failure, t) => (.error failure, t) := by
  simp only [runOn, bind, ExceptT.bind, ExceptT.mk, StateT.bind]
  rcases x s with ⟨_ | a, t⟩ <;> rfl

/-- What was changed before a failure is still there when the failure is handled. -/
theorem runOn_tryCatch (x : Program σ α) (handler : Failure → Program σ α) (s : σ) :
    (tryCatch x handler).runOn s =
      match x.runOn s with
      | (.ok a, t) => (.ok a, t)
      | (.error failure, t) => (handler failure).runOn t := by
  simp only [runOn, tryCatch, tryCatchThe, MonadExceptOf.tryCatch, ExceptT.tryCatch, ExceptT.mk,
    bind, StateT.bind]
  rcases x s with ⟨_ | a, t⟩ <;> rfl

end Program

end Rulebook
