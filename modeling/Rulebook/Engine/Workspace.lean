import Rulebook.Condition.Value
import Rulebook.Condition.Vocabulary
import Rulebook.Engine.Journal
import Rulebook.Engine.Live
import Rulebook.Files
import Rulebook.Program

/-!
# The workspace

Everything that an operation may look at or change: the store, the transactions in memory, the
caches, the journal and the clock.  An operation either gives a result or fails, and in both cases
leaves a workspace behind; what it wrote to the store before it failed is taken back only by
`atomically`.

## Main definitions

* `Receiver` — somebody who is told about notifications, and may fail.
* `Workspace` — the state.
* `Operation` — computations that change the state and may fail.
* `atomically` — all changes to the store or none.  Only the outermost such operation makes its
  changes final, and only if every reference then names a row.
* `write` — a single change to the store, made final at once unless it is part of a larger one.
* `withFreshCaches` — an operation with caches of its own.
-/

namespace Rulebook

open Rulebook.Calendar

/-- The name of a transaction in memory. -/
abbrev Handle := Id

/-- The name under which somebody holds a transaction: the number of its row, or a word. -/
inductive HeldName where
  | number (id : Int)
  | word (s : String)
deriving DecidableEq, Repr

/-- A notification that was sent. -/
structure Notification where
  rule : Option Id
  transaction : Option Id
  message : String
deriving DecidableEq, Repr

/-- A receiver of notifications.  Whether it fails at one may depend on those before. -/
structure Receiver where
  /-- What it was told, the latest first. -/
  told : List Notification := []
  /-- Whether it fails at a notification after those that it was told. -/
  failsAfter : List Notification → Notification → Bool

namespace Receiver

/-- Whether the receiver fails at a notification. -/
def fails (r : Receiver) (n : Notification) : Bool := r.failsAfter r.told n

/-- The receiver after it was told, whether it fails or not. -/
def tell (r : Receiver) (n : Notification) : Receiver := { r with told := n :: r.told }

end Receiver

/-- The values of fields that were looked up, and how often that was needed. -/
structure FieldCache where
  values : List ((Id × Field) × FieldValue) := []
  hits : Nat := 0
  misses : Nat := 0
deriving Repr, Inhabited

namespace FieldCache

/-- The value of a field, if it was looked up before. -/
def find? (c : FieldCache) (id : Option Id) (field : Field) : Option FieldValue :=
  id.bind fun id => c.values.lookup (id, field)

/-- Keeps the value of a field of a transaction that has a row. -/
def keep (c : FieldCache) (id : Option Id) (field : Field) (value : FieldValue) : FieldCache :=
  match id with
  | some id => { c with values := ((id, field), value) :: c.values }
  | none => c

/-- Forgets the fields of a transaction. -/
def forget (c : FieldCache) (id : Option Id) : FieldCache :=
  { c with values := c.values.filter fun entry => some entry.1.1 != id }

/-- Forgets all fields; the counts go on. -/
def clear (c : FieldCache) : FieldCache := { c with values := [] }

/-- The share of look-ups that the cache answered; all of none. -/
def hitRatio (c : FieldCache) : Number.Binary64 :=
  if c.hits + c.misses = 0 then .ofInt 1 else .ofRatio false c.hits (c.hits + c.misses)

end FieldCache

/-- The labels that were looked up by number, found or not. -/
abbrev LabelCache := List ((LabelKind × Id) × Option Label)

/-- Everything that operations work on. -/
structure Workspace where
  store : Store := {}
  live : Table LiveTransaction := {}
  /-- The transactions that are held under a name. -/
  held : List (HeldName × Handle) := []
  fields : FieldCache := {}
  labels : LabelCache := []
  /-- The events so far, the latest first. -/
  events : List Event := []
  /-- The notifications so far, the latest first. -/
  notifications : List Notification := []
  /-- The transactions that an observer of a run was told about, the latest first. -/
  observed : List (Option Id) := []
  /-- The receivers of notifications, in the order in which they are told. -/
  receivers : List Receiver := []
  now : Instant
  settings : Json
  /-- Whether a larger change is under way. -/
  isChanging : Bool := false
  /-- How many log entries the current run has tried to write. -/
  logWrites : Nat := 0
  files : Files := []
  /-- What the current command has printed, the latest first. -/
  printed : List String := []
deriving Inhabited

/-- Computations that change the workspace and may fail. -/
abbrev Operation := Program Workspace

variable {α : Type}

/-- The result of a part of the workspace. -/
def reading (f : Workspace → α) : Operation α := return f (← get)

/-- What remains of a finished change: the new store if the change succeeded and leaves every
reference with a row, else the store before it. -/
def settle (before : Store) (result : Except Failure α) (w : Workspace) :
    Except Failure α × Workspace :=
  match result with
  | .ok a =>
    if w.isChanging || w.store.referencesHold then (.ok a, w)
    else (.error .brokenReference, { w with store := before })
  | .error failure => (.error failure, { w with store := before })

/-- Makes all changes to the store or none.  Within a larger change only the failure of this part is
taken back; references are checked when the outermost change is made final. -/
def atomically (act : Operation α) : Operation α := .of fun w =>
  let (result, w') := act.runOn { w with isChanging := true }
  settle w.store result { w' with isChanging := w.isChanging }

/-- A single change to the store that gives a result. -/
def writeResult (change : Store → Except Failure (α × Store)) : Operation α := atomically do
  let (a, store) ← .ofExcept (change (← get).store)
  modify fun w => { w with store }
  return a

/-- A single change to the store. -/
def write (change : Store → Store) : Operation Unit := writeResult fun s => .ok ((), change s)

/-- Adds a row to a table, seen through `table` and put back by `setTable`. -/
def insertRow {β : Type} (table : Store → Table β) (setTable : Store → Table β → Store) (row : β) :
    Operation Id :=
  writeResult fun s => .ok ((table s).nextId, setTable s ((table s).insert row))

/-- The events so far, which are then forgotten. -/
def takeEvents : Operation (List Event) := .of fun w =>
  (.ok w.events.reverse, { w with events := [] })

/-- The notifications so far, which are then forgotten. -/
def takeNotifications : Operation (List Notification) := .of fun w =>
  (.ok w.notifications.reverse, { w with notifications := [] })

/-- Reports an event. -/
def report (e : Event) : Operation Unit := modify fun w => { w with events := e :: w.events }

/-- Runs an operation with empty caches and puts the old ones back afterwards. -/
def withFreshCaches (act : Operation α) : Operation α := .of fun w =>
  let (result, w') := act.runOn { w with fields := {}, labels := [] }
  (result, { w' with fields := w.fields, labels := w.labels })

/-! ## Transactions in memory -/

/-- The transaction in memory with a name. -/
def Workspace.transaction (w : Workspace) (h : Handle) : LiveTransaction :=
  (w.live.find? h).getD default

/-- The transaction in memory with a name. -/
def transaction (h : Handle) : Operation LiveTransaction := reading fun w => w.transaction h

/-- Changes a transaction in memory. -/
def change (h : Handle) (f : LiveTransaction → LiveTransaction) : Operation Unit :=
  modify fun w => { w with live := w.live.update h f }

/-- Holds a transaction in memory and gives its name. -/
def hold (t : LiveTransaction) : Operation Handle := .of fun w =>
  (.ok w.live.nextId, { w with live := w.live.insert t })

/-- The row with a number, or the failure for a missing one. -/
def row {β : Type} (e : Entity) (table : Store → Table β) (id : Id) : Operation β := do
  match (table (← get).store).find? id with
  | some a => return a
  | none => throw (.missingRow e)

/-! ## Small facts about the state -/

@[simp] theorem runOn_reading (f : Workspace → α) (w : Workspace) :
    (reading f).runOn w = (.ok (f w), w) := rfl

@[simp] theorem runOn_transaction (h : Handle) (w : Workspace) :
    (transaction h).runOn w = (.ok (w.transaction h), w) := rfl

@[simp] theorem runOn_change (h : Handle) (f : LiveTransaction → LiveTransaction)
    (w : Workspace) : (change h f).runOn w = (.ok (), { w with live := w.live.update h f }) := rfl

@[simp] theorem runOn_report (e : Event) (w : Workspace) :
    (report e).runOn w = (.ok (), { w with events := e :: w.events }) := rfl

theorem runOn_row {β : Type} (e : Entity) (table : Store → Table β) (id : Id) (w : Workspace) :
    (row e table id).runOn w =
      match (table w.store).find? id with
      | some a => (.ok a, w)
      | none => (.error (.missingRow e), w) := by
  simp only [row, Program.runOn_bind, Program.runOn_get]
  cases (table w.store).find? id <;> rfl

theorem runOn_atomically (act : Operation α) (w : Workspace) :
    (atomically act).runOn w =
      settle w.store (act.runOn { w with isChanging := true }).1
        { (act.runOn { w with isChanging := true }).2 with isChanging := w.isChanging } := rfl

/-- A single change leaves nothing behind when it fails. -/
theorem runOn_writeResult (change : Store → Except Failure (α × Store)) (w : Workspace) :
    (writeResult change).runOn w =
      match change w.store with
      | .ok (a, store) =>
        if w.isChanging || store.referencesHold then (.ok a, { w with store })
        else (.error .brokenReference, w)
      | .error failure => (.error failure, w) := by
  simp only [writeResult, runOn_atomically, Program.runOn_bind, Program.runOn_get,
    Program.runOn_ofExcept]
  rcases change w.store with failure | ⟨a, store⟩ <;> rfl

/-- Changing a transaction in memory shows under its name. -/
theorem transaction_update_self {w : Workspace} {h : Handle} (hlive : w.live.has h = true)
    (f : LiveTransaction → LiveTransaction) :
    { w with live := w.live.update h f }.transaction h = f (w.transaction h) := by
  obtain ⟨t, ht⟩ := Option.isSome_iff_exists.1 hlive
  simp [Workspace.transaction, Table.find?_update, ht]

/-- Changing a transaction in memory does not show under other names. -/
theorem transaction_update_of_ne {w : Workspace} {h k : Handle} (hne : k ≠ h)
    (f : LiveTransaction → LiveTransaction) :
    { w with live := w.live.update h f }.transaction k = w.transaction k := by
  simp [Workspace.transaction, Table.find?_update, hne]

/-- A name under which nothing is held stands for a transaction without a row. -/
theorem live_has_of_id {w : Workspace} {h : Handle} {id : Id} (hid : (w.transaction h).id = some id) :
    w.live.has h = true := by
  rw [Workspace.transaction] at hid
  rw [Table.has]
  cases hfind : w.live.find? h with
  | none =>
    rw [hfind] at hid
    cases hid
  | some t => rfl

/-- A change that is not kept leaves the store before it. -/
theorem store_settle_of_error {before : Store} {result : Except Failure α} {w : Workspace}
    {failure : Failure} (h : (settle before result w).1 = .error failure) :
    (settle before result w).2.store = before := by
  cases result with
  | error e => rfl
  | ok a =>
    by_cases hw : (w.isChanging || w.store.referencesHold) = true
    · simp [settle, hw] at h
    · simp [settle, hw]

/-- A failed change leaves the store as it was. -/
theorem store_atomically_of_error {act : Operation α} {w : Workspace} {failure : Failure}
    (h : ((atomically act).runOn w).1 = .error failure) :
    ((atomically act).runOn w).2.store = w.store :=
  store_settle_of_error h

end Rulebook
