import Mathlib.Data.List.Forall2
import Mathlib.Order.Defs.Unbundled
import Rulebook.Program

/-!
# Judgements about programs

Everything that is said about the engine is said of programs built with `bind` and `tryCatch`.  A
few judgements are enough for most of it, and all of them pass through these two constructions:

* `Program.Keeps R` — one run: the state afterwards stands in the relation `R` to the state before,
  whether the program succeeds or fails.  For a preorder `R` this is a frame condition, and it holds
  of a sequence as soon as it holds of its parts.  A frame condition that needs an invariant is one
  of the relation `Program.Under P R`, which is a preorder again.
* `Program.Gives P` — one run: the result, if there is one, has the property `P`.
* `Program.Succeeds P` — one run: from a state with the property `P` there is a result, and the
  state afterwards has the property as well.
* `Program.Tells P r` — one run: from every state with the property `P` the result is `r`, be it a
  value or a failure, and the state afterwards has the property as well.
* `Program.Shows P f r` — the same of what can be seen of the result through `f`.
* `Program.Tracks R` — two runs: from the two given states the results are the same, and the states
  afterwards are related by `R`.
* `Program.Relates E R` — two runs whose results are only related by `E`; failures are the same.

`Tracks` and `Relates` are about two particular states and not about all related ones.  A program
that reads the state goes on with what it read, and the facts that tie the two states together are
then needed exactly there.

## Main definitions

* `Program.Keeps`, `Program.Gives`, `Program.Succeeds`, `Program.Tells`, `Program.Shows`,
  `Program.Tracks`, `Program.Relates` — the judgements.
* `Program.Under` — a relation under an invariant.
-/

namespace Rulebook

/-! ## Results -/

section Results

variable {α β : Type} {x : Except Failure α} {f : α → Except Failure β}

/-- What leads to a result leads to one in each step. -/
theorem eq_ok_of_bind {b : β} (h : (x >>= f) = .ok b) : ∃ a, x = .ok a ∧ f a = .ok b := by
  cases x with
  | error failure => cases h
  | ok a => exact ⟨a, rfl, h⟩

/-- What follows a part that succeeds goes on with its result. -/
theorem bind_of_eq_ok {a : α} (h : x = .ok a) : (x >>= f) = f a := by
  rw [h]
  rfl

end Results

end Rulebook

namespace Rulebook.Program

variable {σ τ α β : Type}

/-! ## One run -/

/-- What leads to a result leads to one in each step. -/
theorem runOn_bind_eq_ok {x : Program σ α} {f : α → Program σ β} {s u : σ} {b : β}
    (h : (x >>= f).runOn s = (.ok b, u)) :
    ∃ a t, x.runOn s = (.ok a, t) ∧ (f a).runOn t = (.ok b, u) := by
  rw [runOn_bind] at h
  rcases hfirst : x.runOn s with ⟨failure | a, t⟩ <;> rw [hfirst] at h
  · cases h
  · exact ⟨a, t, rfl, h⟩

/-- After a result the next program goes on. -/
theorem runOn_bind_of_ok {x : Program σ α} {f : α → Program σ β} {s : σ} {a : α}
    (h : (x.runOn s).1 = .ok a) : (x >>= f).runOn s = (f a).runOn (x.runOn s).2 := by
  rw [runOn_bind]
  rcases hrun : x.runOn s with ⟨result, t⟩
  rw [hrun] at h
  cases h
  rfl

/-- After a failure nothing goes on. -/
theorem runOn_bind_of_error {x : Program σ α} {f : α → Program σ β} {s : σ} {failure : Failure}
    (h : (x.runOn s).1 = .error failure) :
    (x >>= f).runOn s = (throw failure : Program σ β).runOn (x.runOn s).2 := by
  rw [runOn_bind]
  rcases hrun : x.runOn s with ⟨result, t⟩
  rw [hrun] at h
  cases h
  rfl

/-- After a result there is nothing to handle. -/
theorem runOn_tryCatch_of_ok {x : Program σ α} {handler : Failure → Program σ α} {s : σ} {a : α}
    (h : (x.runOn s).1 = .ok a) :
    (tryCatch x handler).runOn s = (pure a : Program σ α).runOn (x.runOn s).2 := by
  rw [runOn_tryCatch]
  rcases hrun : x.runOn s with ⟨result, t⟩
  rw [hrun] at h
  cases h
  rfl

/-- After a failure its handler goes on. -/
theorem runOn_tryCatch_of_error {x : Program σ α} {handler : Failure → Program σ α} {s : σ}
    {failure : Failure} (h : (x.runOn s).1 = .error failure) :
    (tryCatch x handler).runOn s = (handler failure).runOn (x.runOn s).2 := by
  rw [runOn_tryCatch]
  rcases hrun : x.runOn s with ⟨result, t⟩
  rw [hrun] at h
  cases h
  rfl

/-- A computation that does not touch the state leads to a result by itself. -/
theorem runOn_ofExcept_eq_ok {r : Except Failure α} {s t : σ} {a : α}
    (h : (ofExcept r).runOn s = (.ok a, t)) : r = .ok a ∧ s = t := Prod.mk.inj h

theorem eq_ok_of_toOption {x : Except Failure α} {a : α} (h : x.toOption = some a) : x = .ok a := by
  cases x with
  | error failure => cases h
  | ok b => exact congrArg Except.ok (Option.some.inj h)

/-- A run whose result is known. -/
theorem runOn_of_toOption {x : Program σ α} {s : σ} {a : α} (h : (x.runOn s).1.toOption = some a) :
    x.runOn s = (.ok a, (x.runOn s).2) := Prod.ext (eq_ok_of_toOption h) rfl

/-- Running the program leads to a state that is related to the one before. -/
def Keeps (R : σ → σ → Prop) (x : Program σ α) : Prop := ∀ s, R s (x.runOn s).2

section Keeps

variable {R S : σ → σ → Prop} {x : Program σ α}

theorem Keeps.mono (hx : Keeps R x) (hRS : ∀ s t, R s t → S s t) : Keeps S x :=
  fun s => hRS s _ (hx s)

variable [IsPreorder σ R]

/-- A program that leaves every state as it is keeps every preorder. -/
theorem keeps_of_runOn (hx : ∀ s, (x.runOn s).2 = s) : Keeps R x := by
  intro s
  rw [hx s]
  exact Std.Refl.refl s

theorem keeps_pure (a : α) : Keeps R (pure a : Program σ α) := keeps_of_runOn fun _ => rfl

theorem keeps_get : Keeps R (get : Program σ σ) := keeps_of_runOn fun _ => rfl

theorem keeps_throw (failure : Failure) : Keeps R (throw failure : Program σ α) :=
  keeps_of_runOn fun _ => rfl

theorem keeps_ofExcept (r : Except Failure α) : Keeps R (ofExcept r : Program σ α) :=
  keeps_of_runOn fun _ => rfl

/-- What follows may rely on how the first program ran. -/
theorem Keeps.bind_run {f : α → Program σ β} (hx : Keeps R x)
    (hf : ∀ s a t, x.runOn s = (.ok a, t) → R t ((f a).runOn t).2) : Keeps R (x >>= f) := by
  intro s
  have hfirst := hx s
  rw [runOn_bind]
  rcases hrun : x.runOn s with ⟨failure | a, t⟩ <;> rw [hrun] at hfirst
  · exact hfirst
  · exact IsTrans.trans _ _ _ hfirst (hf s a t hrun)

theorem Keeps.bind {f : α → Program σ β} (hx : Keeps R x) (hf : ∀ a, Keeps R (f a)) :
    Keeps R (x >>= f) := hx.bind_run fun _ a t _ => hf a t

theorem Keeps.tryCatch {handler : Failure → Program σ α} (hx : Keeps R x)
    (hhandler : ∀ failure, Keeps R (handler failure)) : Keeps R (tryCatch x handler) := by
  intro s
  have hfirst := hx s
  rw [runOn_tryCatch]
  rcases hrun : x.runOn s with ⟨failure | a, t⟩ <;> rw [hrun] at hfirst
  · exact IsTrans.trans _ _ _ hfirst (hhandler failure t)
  · exact hfirst

theorem keeps_mapM {f : α → Program σ β} {l : List α} (hf : ∀ a ∈ l, Keeps R (f a)) :
    Keeps R (l.mapM f) := by
  induction l with
  | nil => exact keeps_pure []
  | cons a rest ih =>
      rw [List.mapM_cons]
      refine (hf a List.mem_cons_self).bind fun b => Keeps.bind ?_ fun bs => keeps_pure _
      exact ih fun b hb => hf b (List.mem_cons_of_mem a hb)

theorem keeps_forM {f : α → Program σ PUnit} {l : List α} (hf : ∀ a, Keeps R (f a)) :
    Keeps R (l.forM f) := by
  induction l with
  | nil => exact keeps_pure PUnit.unit
  | cons a rest ih => exact (hf a).bind fun _ => ih

theorem keeps_foldlM {f : β → α → Program σ β} {l : List α} (hf : ∀ b a, Keeps R (f b a)) (b : β) :
    Keeps R (l.foldlM f b) := by
  induction l generalizing b with
  | nil => exact keeps_pure b
  | cons a rest ih =>
      rw [List.foldlM_cons]
      exact (hf b a).bind fun c => ih c

theorem keeps_allM {p : α → Program σ Bool} {l : List α} (hp : ∀ a, Keeps R (p a)) :
    Keeps R (l.allM p) := by
  induction l with
  | nil => exact keeps_pure true
  | cons a rest ih =>
      rw [List.allM_cons]
      refine (hp a).bind fun b => ?_
      cases b with
      | true => exact ih
      | false => exact keeps_pure false

theorem keeps_anyM {p : α → Program σ Bool} {l : List α} (hp : ∀ a, Keeps R (p a)) :
    Keeps R (l.anyM p) := by
  induction l with
  | nil => exact keeps_pure false
  | cons a rest ih =>
      rw [List.anyM_cons]
      refine (hp a).bind fun b => ?_
      cases b with
      | true => exact keeps_pure true
      | false => exact ih

end Keeps

/-- From a state with the property the relation holds, and the property is kept. -/
def Under (P : σ → Prop) (R : σ → σ → Prop) (s t : σ) : Prop := P s → P t ∧ R s t

section Under

variable {P : σ → Prop} {R : σ → σ → Prop} [IsPreorder σ R] {x : Program σ α}

instance : IsPreorder σ (Under P R) where
  refl s hs := ⟨hs, Std.Refl.refl s⟩
  trans _ _ _ hst htu hs := by
    obtain ⟨ht, hfirst⟩ := hst hs
    obtain ⟨hu, hlater⟩ := htu ht
    exact ⟨hu, IsTrans.trans _ _ _ hfirst hlater⟩

/-- What follows may rely on how the first program ran from a state with the property. -/
theorem Keeps.bind_under {f : α → Program σ β} (hx : Keeps (Under P R) x)
    (hf : ∀ s a t, P s → x.runOn s = (.ok a, t) → P t → Under P R t ((f a).runOn t).2) :
    Keeps (Under P R) (x >>= f) := by
  intro s hs
  have hfirst := hx s hs
  rw [runOn_bind]
  rcases hrun : x.runOn s with ⟨failure | a, t⟩ <;> rw [hrun] at hfirst
  · exact hfirst
  · obtain ⟨hu, hlater⟩ := hf s a t hs hrun hfirst.1 hfirst.1
    exact ⟨hu, IsTrans.trans _ _ _ hfirst.2 hlater⟩

end Under

/-- Whatever the program gives has the property. -/
def Gives (P : α → Prop) (x : Program σ α) : Prop := ∀ s a t, x.runOn s = (.ok a, t) → P a

section Gives

variable {P : α → Prop} {Q : β → Prop} {x : Program σ α}

theorem gives_true (x : Program σ α) : Gives (fun _ => True) x := fun _ _ _ _ => trivial

theorem gives_pure {a : α} (ha : P a) : Gives P (pure a : Program σ α) := by
  rintro s _ _ ⟨⟩
  exact ha

theorem Gives.bind {f : α → Program σ β} (hx : Gives P x) (hf : ∀ a, P a → Gives Q (f a)) :
    Gives Q (x >>= f) := by
  intro s b u hrun
  rw [runOn_bind] at hrun
  rcases hfirst : x.runOn s with ⟨failure | a, t⟩ <;> rw [hfirst] at hrun
  · cases hrun
  · exact hf a (hx s a t hfirst) t b u hrun

/-- What a program gives that is not looked at. -/
theorem gives_bind {f : α → Program σ β} (hf : ∀ a, Gives Q (f a)) : Gives Q (x >>= f) :=
  (gives_true x).bind fun a _ => hf a

theorem Gives.tryCatch {handler : Failure → Program σ α} (hx : Gives P x)
    (hhandler : ∀ failure, Gives P (handler failure)) : Gives P (tryCatch x handler) := by
  intro s a u hrun
  rw [runOn_tryCatch] at hrun
  rcases hfirst : x.runOn s with ⟨failure | b, t⟩ <;> rw [hfirst] at hrun
  · exact hhandler failure t a u hrun
  · cases hrun
    exact hx s _ _ hfirst

theorem gives_mapM {f : α → Program σ β} {l : List α} (hf : ∀ a, Gives Q (f a)) :
    Gives (fun bs => ∀ b ∈ bs, Q b) (l.mapM f) := by
  induction l with
  | nil => exact gives_pure fun _ hb => nomatch hb
  | cons a rest ih =>
      rw [List.mapM_cons]
      refine (hf a).bind fun b hb => ih.bind fun bs hbs => ?_
      exact gives_pure (List.forall_mem_cons.2 ⟨hb, hbs⟩)

end Gives

/-- From every state with the property the program succeeds, and the property is kept. -/
def Succeeds (P : σ → Prop) (x : Program σ α) : Prop :=
  ∀ s, P s → ∃ a t, x.runOn s = (.ok a, t) ∧ P t

section Succeeds

variable {P : σ → Prop} {x : Program σ α}

theorem succeeds_pure (a : α) : Succeeds P (pure a : Program σ α) := fun s hs => ⟨a, s, rfl, hs⟩

theorem succeeds_get : Succeeds P (get : Program σ σ) := fun s hs => ⟨s, s, rfl, hs⟩

theorem Succeeds.bind {f : α → Program σ β} (hx : Succeeds P x) (hf : ∀ a, Succeeds P (f a)) :
    Succeeds P (x >>= f) := by
  intro s hs
  obtain ⟨a, t, hrun, ht⟩ := hx s hs
  rw [runOn_bind, hrun]
  exact hf a t ht

/-- Under a handler that succeeds nothing fails, as long as failures keep the property. -/
theorem succeeds_tryCatch {handler : Failure → Program σ α} (hkept : ∀ s, P s → P (x.runOn s).2)
    (hhandler : ∀ failure, Succeeds P (handler failure)) : Succeeds P (tryCatch x handler) := by
  intro s hs
  have hafter := hkept s hs
  rw [runOn_tryCatch]
  rcases hrun : x.runOn s with ⟨failure | a, t⟩ <;> rw [hrun] at hafter
  · exact hhandler failure t hafter
  · exact ⟨a, t, rfl, hafter⟩

end Succeeds

/-- From every state with the property the program has this result, and the property is kept. -/
def Tells (P : σ → Prop) (r : Except Failure α) (x : Program σ α) : Prop :=
  ∀ s, P s → (x.runOn s).1 = r ∧ P (x.runOn s).2

section Tells

variable {P : σ → Prop} {x : Program σ α} {r : Except Failure α}

theorem tells_pure (a : α) : Tells P (.ok a) (pure a : Program σ α) := fun _ hs => ⟨rfl, hs⟩

theorem tells_ofExcept (r : Except Failure α) : Tells P r (ofExcept r : Program σ α) :=
  fun _ hs => ⟨rfl, hs⟩

theorem Tells.bind {f : α → Program σ β} {g : α → Except Failure β} (hx : Tells P r x)
    (hf : ∀ a, r = .ok a → Tells P (g a) (f a)) : Tells P (r >>= g) (x >>= f) := by
  intro s hs
  obtain ⟨hresult, hkept⟩ := hx s hs
  rw [runOn_bind]
  rcases hrun : x.runOn s with ⟨failure | a, t⟩ <;> rw [hrun] at hresult hkept <;> subst hresult
  · exact ⟨rfl, hkept⟩
  · exact hf a rfl t hkept

/-- After a program that succeeds the next one has the say. -/
theorem Tells.bind_ok {f : α → Program σ β} {a : α} {r : Except Failure β} (hx : Tells P (.ok a) x)
    (hf : Tells P r (f a)) : Tells P r (x >>= f) :=
  hx.bind (g := fun _ => r) fun b hb => by
    cases hb
    exact hf

/-- What a result becomes under a handler that turns failures into values. -/
def handled (g : Failure → α) : Except Failure α → α
  | .ok a => a
  | .error failure => g failure

theorem Tells.tryCatch {handler : Failure → Program σ α} {g : Failure → α} (hx : Tells P r x)
    (hhandler : ∀ failure, Tells P (.ok (g failure)) (handler failure)) :
    Tells P (.ok (handled g r)) (tryCatch x handler) := by
  intro s hs
  obtain ⟨hresult, hkept⟩ := hx s hs
  rw [runOn_tryCatch]
  rcases hrun : x.runOn s with ⟨failure | a, t⟩ <;> rw [hrun] at hresult hkept <;> subst hresult
  · exact hhandler failure t hkept
  · exact ⟨rfl, hkept⟩

/-- Tests that are made one after the other tell what they tell without a state. -/
theorem Tells.allM {p : α → Program σ Bool} {q : α → Except Failure Bool} {l : List α}
    (hp : ∀ a ∈ l, Tells P (q a) (p a)) : Tells P (l.allM q) (l.allM p) := by
  induction l with
  | nil => exact tells_pure true
  | cons a rest ih =>
      rw [List.allM_cons, List.allM_cons]
      refine (hp a List.mem_cons_self).bind fun b _ => ?_
      cases b with
      | true => exact ih fun c hc => hp c (List.mem_cons_of_mem a hc)
      | false => exact tells_pure false

theorem Tells.anyM {p : α → Program σ Bool} {q : α → Except Failure Bool} {l : List α}
    (hp : ∀ a ∈ l, Tells P (q a) (p a)) : Tells P (l.anyM q) (l.anyM p) := by
  induction l with
  | nil => exact tells_pure false
  | cons a rest ih =>
      rw [List.anyM_cons, List.anyM_cons]
      refine (hp a List.mem_cons_self).bind fun b _ => ?_
      cases b with
      | true => exact tells_pure true
      | false => exact ih fun c hc => hp c (List.mem_cons_of_mem a hc)

/-- Where no test fails, the order in which they are made does not matter. -/
theorem tells_allM {p : α → Program σ Bool} {b : α → Bool} {l : List α}
    (hp : ∀ a ∈ l, Tells P (.ok (b a)) (p a)) : Tells P (.ok (l.all b)) (l.allM p) := by
  induction l with
  | nil => exact tells_pure true
  | cons a rest ih =>
      rw [List.allM_cons, List.all_cons]
      refine (hp a List.mem_cons_self).bind_ok ?_
      cases b a with
      | true => exact ih fun c hc => hp c (List.mem_cons_of_mem a hc)
      | false => exact tells_pure false

theorem tells_anyM {p : α → Program σ Bool} {b : α → Bool} {l : List α}
    (hp : ∀ a ∈ l, Tells P (.ok (b a)) (p a)) : Tells P (.ok (l.any b)) (l.anyM p) := by
  induction l with
  | nil => exact tells_pure false
  | cons a rest ih =>
      rw [List.anyM_cons, List.any_cons]
      refine (hp a List.mem_cons_self).bind_ok ?_
      cases b a with
      | true => exact tells_pure true
      | false => exact ih fun c hc => hp c (List.mem_cons_of_mem a hc)

end Tells

/-- From every state with the property this is what can be seen of the result, and the property is
kept. -/
def Shows (P : σ → Prop) (f : α → β) (r : Except Failure β) (x : Program σ α) : Prop :=
  ∀ s, P s → (x.runOn s).1.map f = r ∧ P (x.runOn s).2

section Shows

variable {γ δ : Type} {P : σ → Prop} {f : α → β} {r : Except Failure β} {x : Program σ α}

theorem shows_pure {a : α} {b : β} (hb : f a = b) : Shows P f (.ok b) (pure a : Program σ α) :=
  fun _ hs => ⟨congrArg Except.ok hb, hs⟩

theorem Tells.shows {r : Except Failure α} (hx : Tells P r x) (f : α → β) :
    Shows P f (r.map f) x := fun s hs => ⟨congrArg (Except.map f) (hx s hs).1, (hx s hs).2⟩

/-- Of a program that succeeds the result need not be seen. -/
theorem Succeeds.shows (hx : Succeeds P x) : Shows P (fun _ => ()) (.ok ()) x := by
  intro s hs
  obtain ⟨a, t, hrun, ht⟩ := hx s hs
  rw [hrun]
  exact ⟨rfl, ht⟩

/-- What is seen of a sequence may depend on what is seen of its first part, and on nothing else. -/
theorem Shows.bind {g : γ → δ} {k : β → Except Failure δ} {y : α → Program σ γ}
    (hx : Shows P f r x) (hy : ∀ a, r = .ok (f a) → Shows P g (k (f a)) (y a)) :
    Shows P g (r >>= k) (x >>= y) := by
  intro s hs
  obtain ⟨hresult, hkept⟩ := hx s hs
  rw [runOn_bind]
  rcases hrun : x.runOn s with ⟨failure | a, t⟩ <;> rw [hrun] at hresult hkept <;> subst hresult
  · exact ⟨rfl, hkept⟩
  · exact hy a rfl t hkept

/-- After a program that succeeds the next one has the say. -/
theorem Shows.bind_ok {g : γ → δ} {b : β} {r : Except Failure δ} {y : α → Program σ γ}
    (hx : Shows P f (.ok b) x) (hy : ∀ a, f a = b → Shows P g r (y a)) :
    Shows P g r (x >>= y) :=
  hx.bind (k := fun _ => r) fun a ha => hy a (Except.ok.inj ha).symm

/-- What is seen of a sequence whose first part has a known result. -/
theorem Tells.bind_shows {g : γ → δ} {r : Except Failure α} {k : α → Except Failure δ}
    {y : α → Program σ γ} (hx : Tells P r x) (hy : ∀ a, r = .ok a → Shows P g (k a) (y a)) :
    Shows P g (r >>= k) (x >>= y) := by
  intro s hs
  obtain ⟨hresult, hkept⟩ := hx s hs
  rw [runOn_bind]
  rcases hrun : x.runOn s with ⟨failure | a, t⟩ <;> rw [hrun] at hresult hkept <;> subst hresult
  · exact ⟨rfl, hkept⟩
  · exact hy a rfl t hkept

theorem Tells.bind_shows_ok {g : γ → δ} {a : α} {r : Except Failure δ} {y : α → Program σ γ}
    (hx : Tells P (.ok a) x) (hy : Shows P g r (y a)) : Shows P g r (x >>= y) :=
  hx.bind_shows (k := fun _ => r) fun b hb => by
    cases hb
    exact hy

theorem Shows.tryCatch {handler : Failure → Program σ α} {g : Failure → β} (hx : Shows P f r x)
    (hhandler : ∀ failure, Shows P f (.ok (g failure)) (handler failure)) :
    Shows P f (.ok (handled g r)) (tryCatch x handler) := by
  intro s hs
  obtain ⟨hresult, hkept⟩ := hx s hs
  rw [runOn_tryCatch]
  rcases hrun : x.runOn s with ⟨failure | a, t⟩ <;> rw [hrun] at hresult hkept <;> subst hresult
  · exact hhandler failure t hkept
  · exact ⟨rfl, hkept⟩

end Shows

/-! ## Two runs -/

/-- From two states, two programs give the same result and lead to related states. -/
structure Tracks (R : σ → τ → Prop) (x : Program σ α) (y : Program τ α) (s : σ) (t : τ) : Prop where
  result : (x.runOn s).1 = (y.runOn t).1
  state : R (x.runOn s).2 (y.runOn t).2

section Tracks

variable {R S : σ → τ → Prop} {x : Program σ α} {y : Program τ α} {s : σ} {t : τ}

theorem Tracks.mono (hxy : Tracks R x y s t) (hRS : ∀ s t, R s t → S s t) : Tracks S x y s t :=
  ⟨hxy.result, hRS _ _ hxy.state⟩

/-- Two runs with the same result. -/
theorem tracks_of_runs {r : Except Failure α} {s' : σ} {t' : τ} (hx : x.runOn s = (r, s'))
    (hy : y.runOn t = (r, t')) (h : R s' t') : Tracks R x y s t := by
  refine ⟨?_, ?_⟩ <;> rw [hx, hy]
  exact h

theorem tracks_pure (a : α) (h : R s t) : Tracks R (pure a) (pure a) s t := ⟨rfl, h⟩

theorem tracks_throw (failure : Failure) (h : R s t) :
    Tracks R (throw failure : Program σ α) (throw failure) s t := ⟨rfl, h⟩

theorem tracks_ofExcept (r : Except Failure α) (h : R s t) :
    Tracks R (ofExcept r) (ofExcept r) s t := ⟨rfl, h⟩

theorem tracks_modify {f : σ → σ} {g : τ → τ} (h : R (f s) (g t)) :
    Tracks R (modify f : Program σ PUnit) (modify g) s t := ⟨rfl, h⟩

/-- Programs that read the state go on with the two states. -/
theorem tracks_get_bind {f : σ → Program σ α} {g : τ → Program τ α}
    (h : Tracks R (f s) (g t) s t) : Tracks R (get >>= f) (get >>= g) s t :=
  ⟨h.result, h.state⟩

/-- Only the second program reads its state. -/
theorem tracks_get_right {g : τ → Program τ α} (h : Tracks R x (g t) s t) :
    Tracks R x (get >>= g) s t := ⟨h.result, h.state⟩

/-- Two such programs succeed with the same result or fail for the same reason. -/
theorem Tracks.cases (hxy : Tracks R x y s t) :
    (∃ a s' t', x.runOn s = (.ok a, s') ∧ y.runOn t = (.ok a, t') ∧ R s' t') ∨
      ∃ failure s' t', x.runOn s = (.error failure, s') ∧ y.runOn t = (.error failure, t') ∧
        R s' t' := by
  obtain ⟨hresult, hstate⟩ := hxy
  rcases hx : x.runOn s with ⟨failure | a, s'⟩ <;>
    rcases hy : y.runOn t with ⟨failure' | a', t'⟩ <;>
    rw [hx, hy] at hresult hstate <;> cases hresult
  · exact Or.inr ⟨failure, s', t', rfl, rfl, hstate⟩
  · exact Or.inl ⟨a, s', t', rfl, rfl, hstate⟩

/-- Two sequences whose first parts succeed, each with its own result. -/
theorem tracks_bind_of_ok {γ : Type} {z : Program τ γ} {f : α → Program σ β} {g : γ → Program τ β}
    {a : α} {c : γ} {s' : σ} {t' : τ} (hx : x.runOn s = (.ok a, s')) (hz : z.runOn t = (.ok c, t'))
    (hfg : Tracks R (f a) (g c) s' t') : Tracks R (x >>= f) (z >>= g) s t := by
  refine ⟨?_, ?_⟩ <;> rw [runOn_bind, runOn_bind, hx, hz]
  · exact hfg.result
  · exact hfg.state

/-- What follows may rely on how the first programs ran. -/
theorem Tracks.bind_run {f : α → Program σ β} {g : α → Program τ β} (hxy : Tracks R x y s t)
    (hfg : ∀ a s' t', x.runOn s = (.ok a, s') → y.runOn t = (.ok a, t') → R s' t' →
      Tracks R (f a) (g a) s' t') :
    Tracks R (x >>= f) (y >>= g) s t := by
  rcases hxy.cases with ⟨a, s', t', hx, hy, hst⟩ | ⟨failure, s', t', hx, hy, hst⟩
  · exact tracks_bind_of_ok hx hy (hfg a s' t' hx hy hst)
  · refine ⟨?_, ?_⟩ <;> rw [runOn_bind, runOn_bind, hx, hy]
    exact hst

theorem Tracks.bind {f : α → Program σ β} {g : α → Program τ β} (hxy : Tracks R x y s t)
    (hfg : ∀ a s t, R s t → Tracks R (f a) (g a) s t) : Tracks R (x >>= f) (y >>= g) s t :=
  hxy.bind_run fun a s' t' _ _ hst => hfg a s' t' hst

theorem Tracks.tryCatch {f : Failure → Program σ α} {g : Failure → Program τ α}
    (hxy : Tracks R x y s t) (hfg : ∀ failure s t, R s t → Tracks R (f failure) (g failure) s t) :
    Tracks R (tryCatch x f) (tryCatch y g) s t := by
  rcases hxy.cases with ⟨a, s', t', hx, hy, hst⟩ | ⟨failure, s', t', hx, hy, hst⟩
  · refine ⟨?_, ?_⟩ <;> rw [runOn_tryCatch, runOn_tryCatch, hx, hy]
    exact hst
  · have hrest := hfg failure s' t' hst
    refine ⟨?_, ?_⟩ <;> rw [runOn_tryCatch, runOn_tryCatch, hx, hy]
    · exact hrest.result
    · exact hrest.state

theorem tracks_allM {p : α → Program σ Bool} {q : α → Program τ Bool} {l : List α}
    (hpq : ∀ a s t, R s t → Tracks R (p a) (q a) s t) (h : R s t) :
    Tracks R (l.allM p) (l.allM q) s t := by
  induction l generalizing s t with
  | nil => exact tracks_pure true h
  | cons a rest ih =>
      rw [List.allM_cons, List.allM_cons]
      refine (hpq a s t h).bind fun b s' t' h' => ?_
      cases b with
      | true => exact ih h'
      | false => exact tracks_pure false h'

theorem tracks_anyM {p : α → Program σ Bool} {q : α → Program τ Bool} {l : List α}
    (hpq : ∀ a s t, R s t → Tracks R (p a) (q a) s t) (h : R s t) :
    Tracks R (l.anyM p) (l.anyM q) s t := by
  induction l generalizing s t with
  | nil => exact tracks_pure false h
  | cons a rest ih =>
      rw [List.anyM_cons, List.anyM_cons]
      refine (hpq a s t h).bind fun b s' t' h' => ?_
      cases b with
      | true => exact tracks_pure true h'
      | false => exact ih h'

end Tracks

/-- From two states, two programs succeed with related results or fail for the same reason, and lead
to related states. -/
def Relates (E : α → β → Prop) (R : σ → τ → Prop) (x : Program σ α) (y : Program τ β) (s : σ)
    (t : τ) : Prop :=
  (∃ a b s' t', x.runOn s = (.ok a, s') ∧ y.runOn t = (.ok b, t') ∧ E a b ∧ R s' t') ∨
    ∃ failure s' t', x.runOn s = (.error failure, s') ∧ y.runOn t = (.error failure, t') ∧ R s' t'

section Relates

variable {γ δ : Type} {E : α → β → Prop} {F : γ → δ → Prop} {R : σ → τ → Prop} {x : Program σ α}
  {y : Program τ β} {s : σ} {t : τ}

theorem relates_pure {a : α} {b : β} (hE : E a b) (hR : R s t) :
    Relates E R (pure a) (pure b) s t := Or.inl ⟨a, b, s, t, rfl, rfl, hE, hR⟩

/-- What follows may rely on how the first programs ran. -/
theorem Relates.bind_run {f : α → Program σ γ} {g : β → Program τ δ} (hxy : Relates E R x y s t)
    (hfg : ∀ a b s' t', x.runOn s = (.ok a, s') → y.runOn t = (.ok b, t') → E a b → R s' t' →
      Relates F R (f a) (g b) s' t') :
    Relates F R (x >>= f) (y >>= g) s t := by
  rcases hxy with ⟨a, b, s', t', hx, hy, hab, hst⟩ | ⟨failure, s', t', hx, hy, hst⟩
  · rw [Relates, runOn_bind, runOn_bind, hx, hy]
    exact hfg a b s' t' hx hy hab hst
  · refine Or.inr ⟨failure, s', t', ?_, ?_, hst⟩ <;> rw [runOn_bind]
    · rw [hx]
    · rw [hy]

theorem Relates.bind {f : α → Program σ γ} {g : β → Program τ δ} (hxy : Relates E R x y s t)
    (hfg : ∀ a b s t, E a b → R s t → Relates F R (f a) (g b) s t) :
    Relates F R (x >>= f) (y >>= g) s t :=
  hxy.bind_run fun a b s' t' _ _ hab hst => hfg a b s' t' hab hst

theorem Tracks.relates {z : Program τ α} (hxz : Tracks R x z s t) : Relates Eq R x z s t := by
  rcases hxz.cases with ⟨a, s', t', hx, hz, hst⟩ | hfailed
  · exact Or.inl ⟨a, a, s', t', hx, hz, rfl, hst⟩
  · exact Or.inr hfailed

/-- After the same result. -/
theorem Tracks.bind_relates {z : Program τ α} {f : α → Program σ γ} {g : α → Program τ δ}
    (hxz : Tracks R x z s t)
    (hfg : ∀ a s' t', x.runOn s = (.ok a, s') → z.runOn t = (.ok a, t') → R s' t' →
      Relates F R (f a) (g a) s' t') :
    Relates F R (x >>= f) (z >>= g) s t := by
  refine hxz.relates.bind_run ?_
  rintro a _ s' t' hx hz rfl hst
  exact hfg a s' t' hx hz hst

theorem Relates.tryCatch {f : Failure → Program σ α} {g : Failure → Program τ β}
    (hxy : Relates E R x y s t)
    (hfg : ∀ failure s t, R s t → Relates E R (f failure) (g failure) s t) :
    Relates E R (tryCatch x f) (tryCatch y g) s t := by
  rcases hxy with ⟨a, b, s', t', hx, hy, hab, hst⟩ | ⟨failure, s', t', hx, hy, hst⟩
  · refine Or.inl ⟨a, b, s', t', ?_, ?_, hab, hst⟩ <;> rw [runOn_tryCatch]
    · rw [hx]
    · rw [hy]
  · rw [Relates, runOn_tryCatch, runOn_tryCatch, hx, hy]
    exact hfg failure s' t' hst

theorem relates_mapM {ι : Type} {f : ι → Program σ α} {g : ι → Program τ β} {l : List ι}
    (hfg : ∀ i ∈ l, ∀ s t, R s t → Relates E R (f i) (g i) s t) (h : R s t) :
    Relates (List.Forall₂ E) R (l.mapM f) (l.mapM g) s t := by
  induction l generalizing s t with
  | nil => exact relates_pure .nil h
  | cons i rest ih =>
      rw [List.mapM_cons, List.mapM_cons]
      refine (hfg i List.mem_cons_self s t h).bind fun a b s t hab h => ?_
      refine (ih (fun j hj => hfg j (List.mem_cons_of_mem i hj)) h).bind fun as bs s t habs h => ?_
      exact relates_pure (.cons hab habs) h

/-- The states that the programs lead to are related. -/
theorem Relates.state (hxy : Relates E R x y s t) : R (x.runOn s).2 (y.runOn t).2 := by
  rcases hxy with ⟨a, b, s', t', hx, hy, -, hst⟩ | ⟨failure, s', t', hx, hy, hst⟩
  · rw [hx, hy]
    exact hst
  · rw [hx, hy]
    exact hst

/-- What else is known of the states that the programs lead to. -/
theorem Relates.of_state {S : σ → τ → Prop} (hxy : Relates E R x y s t)
    (hS : S (x.runOn s).2 (y.runOn t).2) : Relates E S x y s t := by
  rcases hxy with ⟨a, b, s', t', hx, hy, hab, -⟩ | ⟨failure, s', t', hx, hy, -⟩ <;>
    rw [hx, hy] at hS
  · exact Or.inl ⟨a, b, s', t', hx, hy, hab, hS⟩
  · exact Or.inr ⟨failure, s', t', hx, hy, hS⟩

theorem Relates.mono {S : σ → τ → Prop} (hxy : Relates E R x y s t)
    (hRS : ∀ s t, R s t → S s t) : Relates E S x y s t := hxy.of_state (hRS _ _ hxy.state)

end Relates

end Rulebook.Program

/-! ## Lists of results -/

namespace Rulebook

variable {α β γ : Type}

/-- Lists whose entries are related look the same if related entries do. -/
theorem map_eq_of_forall₂ {E : α → β → Prop} {f : α → γ} {g : β → γ} {l : List α} {l' : List β}
    (h : List.Forall₂ E l l') (hE : ∀ a b, E a b → g b = f a) : l'.map g = l.map f := by
  induction h with
  | nil => rfl
  | cons hfirst _ ih => rw [List.map_cons, List.map_cons, hE _ _ hfirst, ih]

theorem eq_of_forall₂ {E : α → α → Prop} {l l' : List α} (h : List.Forall₂ E l l')
    (hE : ∀ a b, E a b → b = a) : l' = l := by
  have hmap := map_eq_of_forall₂ (f := id) (g := id) h hE
  rwa [List.map_id, List.map_id] at hmap

/-- Two results for each entry of a list, seen side by side. -/
theorem forall₂_of_both {R : α → β → Prop} {S : α → γ → Prop} {T : β → γ → Prop}
    (hT : ∀ a b c, R a b → S a c → T b c) {l : List α} {bs : List β} {cs : List γ}
    (hR : List.Forall₂ R l bs) (hS : List.Forall₂ S l cs) : List.Forall₂ T bs cs := by
  induction hR generalizing cs with
  | nil =>
      cases hS
      exact .nil
  | cons hab _ ih =>
      cases hS with
      | cons hac hrest => exact .cons (hT _ _ _ hab hac) (ih hrest)

end Rulebook
