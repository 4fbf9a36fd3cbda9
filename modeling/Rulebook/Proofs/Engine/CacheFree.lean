import Rulebook.Proofs.Engine.Working

/-!
# Operations that do not touch the caches

Most of what the engine does has nothing to do with the caches: it neither asks them nor writes
into them.  Such an operation can be run under any caches, and it gives the same result and does
the same to the rest of the workspace.

The judgement `IgnoresCaches` says this of an operation as a whole.  It passes through `bind`, and a
program that reads the workspace has it as soon as it goes on in the same way under all caches.

## Main definitions

* `Workspace.withCaches` — a workspace with other caches.
* `IgnoresCaches` — an operation that neither reads nor writes caches.
-/

namespace Rulebook

open Program Workspace

/-- The workspace with other caches. -/
def Workspace.withCaches (w : Workspace) (fields : FieldCache) (labels : LabelCache) : Workspace :=
  { w with fields, labels }

/-- The operation neither reads nor writes the caches. -/
def IgnoresCaches {α : Type} (x : Operation α) : Prop :=
  ∀ w fields labels, x.runOn (w.withCaches fields labels) =
    ((x.runOn w).1, (x.runOn w).2.withCaches fields labels)

variable {α β : Type}

/-- The caches are as they were. -/
theorem IgnoresCaches.caches {x : Operation α} (hx : IgnoresCaches x) (w : Workspace) :
    (x.runOn w).2.fields = w.fields ∧ (x.runOn w).2.labels = w.labels := by
  have hrun := congrArg Prod.snd (hx w w.fields w.labels)
  have hfields := congrArg Workspace.fields hrun
  have hlabels := congrArg Workspace.labels hrun
  exact ⟨hfields, hlabels⟩

theorem ignores_pure (a : α) : IgnoresCaches (pure a : Operation α) := fun _ _ _ => rfl

theorem ignores_throw (failure : Failure) : IgnoresCaches (throw failure : Operation α) :=
  fun _ _ _ => rfl

theorem ignores_ofExcept (r : Except Failure α) :
    IgnoresCaches (Program.ofExcept r : Operation α) := fun _ _ _ => rfl

theorem ignores_modify {f : Workspace → Workspace}
    (hf : ∀ w fields labels, f (w.withCaches fields labels) = (f w).withCaches fields labels) :
    IgnoresCaches (modify f : Operation PUnit) := by
  intro w fields labels
  rw [runOn_modify, runOn_modify, hf]

theorem IgnoresCaches.bind {x : Operation α} {f : α → Operation β} (hx : IgnoresCaches x)
    (hf : ∀ a, IgnoresCaches (f a)) : IgnoresCaches (x >>= f) := by
  intro w fields labels
  rw [runOn_bind, runOn_bind, hx w fields labels]
  rcases x.runOn w with ⟨failure | a, v⟩
  · rfl
  · exact hf a v fields labels

/-- Operations that read nothing of the caches. -/
theorem ignores_get_bind {f : Workspace → Operation β}
    (hsame : ∀ w fields labels, f (w.withCaches fields labels) = f w)
    (hf : ∀ w, IgnoresCaches (f w)) : IgnoresCaches (get >>= f) := by
  intro w fields labels
  rw [runOn_bind, runOn_bind, runOn_get, runOn_get]
  dsimp only
  rw [hsame]
  exact hf w w fields labels

theorem ignores_transaction (h : Handle) : IgnoresCaches (transaction h) := fun _ _ _ => rfl

theorem ignores_change (h : Handle) (f : LiveTransaction → LiveTransaction) :
    IgnoresCaches (change h f) := fun _ _ _ => rfl

theorem ignores_report (e : Event) : IgnoresCaches (report e) := fun _ _ _ => rfl

theorem ignores_row {γ : Type} (e : Entity) (table : Store → Table γ) (id : Id) :
    IgnoresCaches (row e table id) := by
  rw [row]
  refine ignores_get_bind (fun _ _ _ => rfl) fun w => ?_
  split
  · exact ignores_pure _
  · exact ignores_throw _

theorem ignores_writeResult (f : Store → Except Failure (α × Store)) :
    IgnoresCaches (writeResult f) := by
  intro w fields labels
  have hsame : (w.withCaches fields labels).store = w.store := rfl
  have hchanging : (w.withCaches fields labels).isChanging = w.isChanging := rfl
  rw [runOn_writeResult, runOn_writeResult, hsame, hchanging]
  rcases f w.store with failure | ⟨a, s⟩
  · rfl
  · dsimp only
    split <;> rfl

/-! ## Looking up rows -/

theorem ignores_accountOf (h : Handle) : IgnoresCaches (accountOf h) := by
  rw [accountOf]
  refine (ignores_transaction h).bind fun t => ?_
  dsimp only
  split
  · exact ignores_pure _
  · exact ignores_pure _
  · exact (ignores_row _ _ _).bind fun account => (ignores_change h _).bind fun _ => ignores_pure _

theorem ignores_labelOf (role : LabelRole) (h : Handle) : IgnoresCaches (labelOf role h) := by
  rw [labelOf]
  refine (ignores_transaction h).bind fun t => ?_
  dsimp only
  split
  · exact ignores_pure _
  · exact ignores_pure _
  · exact (ignores_row _ _ _).bind fun label => (ignores_change h _).bind fun _ => ignores_pure _

theorem ignores_ownerOf (h : Handle) : IgnoresCaches (ownerOf h) := by
  rw [ownerOf]
  refine (ignores_transaction h).bind fun t => ?_
  split
  · exact (ignores_accountOf h).bind fun account => ignores_pure _
  · exact ignores_pure _

theorem ignores_labelName (role : LabelRole) (h : Handle) : IgnoresCaches (labelName role h) := by
  rw [labelName]
  refine (ignores_transaction h).bind fun t => ?_
  split
  · exact (ignores_labelOf role h).bind fun label => ignores_pure _
  · exact ignores_pure _

theorem ignores_resolveField (h : Handle) (field : Field) :
    IgnoresCaches (resolveField h field) := by
  rw [resolveField]
  refine (ignores_transaction h).bind fun t => ?_
  cases field with
  | category => exact ignores_labelName .category h
  | merchant => exact ignores_labelName .merchant h
  | account =>
      refine (ignores_transaction h).bind fun t => ?_
      split
      · exact (ignores_accountOf h).bind fun account => ignores_pure _
      · exact ignores_pure _
  | tags =>
      refine (ignores_transaction h).bind fun t => ?_
      split
      · exact ignores_pure _
      · exact ignores_get_bind (fun _ _ _ => rfl) fun w => ignores_pure _
  | _ => exact ignores_pure _

theorem ignores_refresh (h : Handle) : IgnoresCaches (refresh h) := by
  rw [refresh]
  refine (ignores_transaction h).bind fun t => ?_
  split
  · exact ignores_pure ()
  · exact (ignores_row _ _ _).bind fun stored => ignores_change h _

/-! ## Tags -/

theorem ignores_putTag (h : Handle) (tag : Id) : IgnoresCaches (putTag h tag) := by
  rw [putTag]
  refine (ignores_transaction h).bind fun t => ?_
  split
  · exact ignores_writeResult _
  · exact ignores_pure _

theorem ignores_takeTags (h : Handle) (test : Id → Bool) : IgnoresCaches (takeTags h test) := by
  rw [takeTags]
  refine (ignores_transaction h).bind fun t => ?_
  split
  · exact ignores_writeResult _
  · exact ignores_pure _

end Rulebook
