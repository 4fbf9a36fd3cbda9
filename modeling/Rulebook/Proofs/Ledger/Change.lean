import Mathlib.Data.List.Nodup
import Mathlib.Logic.Relation
import Rulebook.Proofs.Ledger.Closure

/-!
# How a store changes

Every operation changes the store by changes of a few kinds (`Store.Change`), so what all kinds
preserve, all operations preserve, whether they succeed or fail half way.

Two things are preserved.  Keys stay unique (`Store.KeysUnique`): whoever adds a user, a label or a
tag on a transaction looks first whether there is one, and no other change adds rows with keys or
changes a key.  Logs stay as they are, as long as nothing is deleted: there are changes that add a
log, and none that rewrites one.  The tables that matter for neither may change as they like
(`Store.guarded`).

## Main definitions

* `Store.KeysUnique` — no two rows have the same key.
* `Store.Change`, `Store.Becomes` — a change, and any number of them.

## Main statements

* `Store.Becomes.keysUnique` — keys stay unique.
* `Store.Becomes.logs_grow` — without deletions, logs are only added.
-/

namespace Rulebook

/-! ## Keys -/

namespace Table

variable {α κ : Type}

/-- The keys of all rows. -/
def keys (t : Table α) (key : α → κ) : List κ := t.rows.map fun row => key row.2

theorem mem_keys {t : Table α} {key : α → κ} {k : κ} :
    k ∈ t.keys key ↔ ∃ row ∈ t.rows, key row.2 = k := List.mem_map

/-- Keys stay unique when a row with a new key is added. -/
theorem nodup_keys_insert {t : Table α} {key : α → κ} (h : (t.keys key).Nodup) {a : α}
    (hnew : key a ∉ t.keys key) : ((t.insert a).keys key).Nodup := by
  have hkeys : (t.insert a).keys key = t.keys key ++ [key a] := List.map_append
  rw [hkeys]
  exact List.Nodup.append h (List.nodup_singleton _) (List.disjoint_singleton.2 hnew)

/-- Keys stay unique when rows are removed. -/
theorem keys_mapRows {t : Table α} {key : α → κ} {f : Id → α → α}
    (hf : ∀ id a, key (f id a) = key a) : (t.mapRows f).keys key = t.keys key := by
  simp [keys, mapRows, Function.comp_def, hf]

theorem nodup_keys_remove {t : Table α} {key : α → κ} (h : (t.keys key).Nodup)
    (test : Id → α → Bool) : ((t.remove test).keys key).Nodup :=
  h.sublist (List.filter_sublist.map _)

/-- No two rows have the same number. -/
theorem nodup_ids (t : Table α) : t.ids.Nodup :=
  List.pairwise_map.2 (t.ascending.imp fun hlt => Int.ne_of_lt hlt)

end Table

/-- Owner and name of a label, which no two labels of a kind share. -/
def Label.key (l : Label) : Id × String := (l.user, l.name)

namespace Store

variable {s t u : Store} {deletes : Bool}

/-- No tag is twice on a transaction. -/
def TagsOnce (s : Store) : Prop := (s.links.rows.map (·.2)).Nodup

namespace TagsOnce

theorem of_links (hs : s.TagsOnce) (hlinks : t.links = s.links) : t.TagsOnce := by
  rw [Store.TagsOnce, hlinks]
  exact hs

/-- A tag that is there is not put there again. -/
theorem addLink (hs : s.TagsOnce) (n tag : Id) : (s.addLink n tag).TagsOnce := by
  rw [Store.addLink]
  split
  · exact hs
  · next hfresh =>
    have hnew : (⟨n, tag⟩ : TagLink) ∉ s.links.rows.map (·.2) := by
      intro hmem
      obtain ⟨row, hrow, heq⟩ := List.mem_map.1 hmem
      refine hfresh (Store.hasLink_iff.2 ⟨row, hrow, ?_, ?_⟩) <;> rw [heq]
    rw [Store.TagsOnce, Table.insert, List.map_append]
    exact List.Nodup.append hs (List.nodup_singleton _) (List.disjoint_singleton.2 hnew)

theorem removeLinks (hs : s.TagsOnce) (test : Id → TagLink → Bool) :
    Store.TagsOnce { s with links := s.links.remove test } :=
  List.Nodup.sublist (List.filter_sublist.map _) hs

end TagsOnce

/-- No two users have the same address, no two labels of a user and a kind the same name, and no tag
is twice on a transaction. -/
structure KeysUnique (s : Store) : Prop where
  users : (s.users.keys User.email).Nodup
  labels : ∀ kind, ((s.labels kind).keys Label.key).Nodup
  links : s.TagsOnce

theorem keysUnique_empty : ({} : Store).KeysUnique where
  users := List.nodup_nil
  labels kind := by cases kind <;> exact List.nodup_nil
  links := List.nodup_nil

/-! ## Changes -/

/-- The tables whose rows have keys or are never rewritten. -/
def guarded (s : Store) : Store where
  users := s.users
  categories := s.categories
  merchants := s.merchants
  tags := s.tags
  links := s.links
  logs := s.logs

/-- A change to the store; deletions are changes only if they are allowed. -/
inductive Change (deletes : Bool) : Store → Store → Prop where
  | addUser {s t : Store} {user : User} {id : Id} (hadd : s.addUser user = .ok (id, t)) :
      Change deletes s t
  | addLabel {s t : Store} {kind : LabelKind} {l : Label} {id : Id}
      (hadd : s.addLabel kind l = .ok (id, t)) : Change deletes s t
  | addLink (s : Store) (transaction tag : Id) : Change deletes s (s.addLink transaction tag)
  | removeLinks (s : Store) (test : Id → TagLink → Bool) :
      Change deletes s { s with links := s.links.remove test }
  | addLog (s : Store) (log : Log) : Change deletes s { s with logs := s.logs.insert log }
  /-- Rows without a key are added, changed or removed. -/
  | rows {s t : Store} (hguarded : t.guarded = s.guarded) : Change deletes s t
  | remove (hdeletes : deletes = true) (s : Store) (gone : Doomed) :
      Change deletes s (s.removeDoomed gone)

/-- The later store came from the earlier one by any number of changes. -/
def Becomes (deletes : Bool) : Store → Store → Prop := Relation.ReflTransGen (Change deletes)

instance : IsPreorder Store (Becomes deletes) where
  refl _ := Relation.ReflTransGen.refl
  trans _ _ _ := Relation.ReflTransGen.trans

theorem Change.becomes (h : Change deletes s t) : Becomes deletes s t :=
  Relation.ReflTransGen.single h

/-- Whoever may delete may do without. -/
theorem Becomes.deleting (h : Becomes false s t) : Becomes deletes s t := by
  have hchange : ∀ s t, Change false s t → Change deletes s t := by
    intro s t h
    cases h with
    | addUser hadd => exact .addUser hadd
    | addLabel hadd => exact .addLabel hadd
    | addLink s n tag => exact .addLink s n tag
    | removeLinks s test => exact .removeLinks s test
    | addLog s log => exact .addLog s log
    | rows hguarded => exact .rows hguarded
    | remove hdeletes => cases hdeletes
  exact Relation.ReflTransGen.mono hchange _ _ h

/-! ## What changes preserve -/

/-- The labels of one kind change, and nothing else. -/
theorem guarded_eq_iff : t.guarded = s.guarded ↔
    t.users = s.users ∧ (∀ kind, t.labels kind = s.labels kind) ∧ t.links = s.links ∧
      t.logs = s.logs := by
  simp only [guarded, mk.injEq, true_and]
  constructor
  · rintro ⟨husers, hcategories, hmerchants, htags, hlinks, hlogs⟩
    refine ⟨husers, fun kind => ?_, hlinks, hlogs⟩
    cases kind with
    | category => exact hcategories
    | merchant => exact hmerchants
    | tag => exact htags
  · rintro ⟨husers, hlabels, hlinks, hlogs⟩
    exact ⟨husers, hlabels .category, hlabels .merchant, hlabels .tag, hlinks, hlogs⟩

theorem KeysUnique.addUser (hs : s.KeysUnique) {user : User} {id : Id}
    (hadd : s.addUser user = .ok (id, t)) : t.KeysUnique := by
  rw [Store.addUser] at hadd
  split at hadd
  · cases hadd
  · next hfree =>
    cases hadd
    have hnew : user.email ∉ s.users.keys User.email := by
      intro hmem
      obtain ⟨row, hrow, heq⟩ := Table.mem_keys.1 hmem
      exact hfree (List.any_eq_true.2 ⟨row, hrow, decide_eq_true heq⟩)
    exact ⟨Table.nodup_keys_insert hs.users hnew, hs.labels, hs.links⟩

theorem KeysUnique.addLabel (hs : s.KeysUnique) {kind : LabelKind} {l : Label} {id : Id}
    (hadd : s.addLabel kind l = .ok (id, t)) : t.KeysUnique := by
  rw [Store.addLabel] at hadd
  split at hadd
  · cases hadd
  · next hfree =>
    cases hadd
    have hnew : l.key ∉ (s.labels kind).keys Label.key := by
      intro hmem
      obtain ⟨row, hrow, heq⟩ := Table.mem_keys.1 hmem
      obtain ⟨huser, hname⟩ := Prod.mk.inj heq
      refine hfree (List.find?_isSome.2 ⟨row, hrow, ?_⟩)
      simp [huser, hname]
    refine ⟨?_, fun other => ?_, hs.links.of_links (by cases kind <;> rfl)⟩
    · cases kind <;> exact hs.users
    · -- Labels of other kinds may have the same name.
      by_cases hother : other = kind
      · rw [hother, labels_setLabels]
        exact Table.nodup_keys_insert (hs.labels kind) hnew
      · rw [labels_setLabels_of_ne hother]
        exact hs.labels other

theorem KeysUnique.removeDoomed (hs : s.KeysUnique) (gone : Doomed) :
    (s.removeDoomed gone).KeysUnique where
  users := Table.nodup_keys_remove hs.users _
  labels kind := by
    cases kind with
    | category =>
      -- A category may lose the one above it, which is not part of its key.
      have hkeys : ((without s.categories gone.categories).mapRows fun _ l =>
            { l with parent := keepReference gone.categories l.parent }).keys Label.key =
          (without s.categories gone.categories).keys Label.key := Table.keys_mapRows fun _ _ => rfl
      exact (congrArg List.Nodup hkeys).mpr
        (Table.nodup_keys_remove (hs.labels .category) fun id _ => gone.categories.contains id)
    | merchant =>
      exact Table.nodup_keys_remove (hs.labels .merchant) fun id _ => gone.merchants.contains id
    | tag => exact Table.nodup_keys_remove (hs.labels .tag) fun id _ => gone.tags.contains id
  links := hs.links.removeLinks _

/-- Keys stay unique if only the tags on transactions change, and stay there once. -/
theorem KeysUnique.of_labels (hs : s.KeysUnique) (husers : t.users = s.users)
    (hlabels : ∀ kind, t.labels kind = s.labels kind) (hlinks : t.TagsOnce) : t.KeysUnique where
  users := by
    rw [husers]
    exact hs.users
  labels kind := by
    rw [hlabels]
    exact hs.labels kind
  links := hlinks

/-- A change keeps keys unique. -/
theorem Change.keysUnique (h : Change deletes s t) (hs : s.KeysUnique) : t.KeysUnique := by
  cases h with
  | addUser hadd => exact hs.addUser hadd
  | addLabel hadd => exact hs.addLabel hadd
  | addLink s n tag =>
      have husers : (s.addLink n tag).users = s.users := by
        rw [Store.addLink]
        split <;> rfl
      have hlabels : ∀ kind, (s.addLink n tag).labels kind = s.labels kind := by
        intro kind
        rw [Store.addLink]
        split <;> cases kind <;> rfl
      exact hs.of_labels husers hlabels (hs.links.addLink n tag)
  | removeLinks s test =>
      exact hs.of_labels rfl (fun kind => by cases kind <;> rfl) (hs.links.removeLinks test)
  | addLog s log => exact hs.of_labels rfl (fun kind => by cases kind <;> rfl) hs.links
  | rows hguarded =>
      obtain ⟨husers, hlabels, hlinks, -⟩ := guarded_eq_iff.1 hguarded
      exact hs.of_labels husers hlabels (hs.links.of_links hlinks)
  | remove _ s gone => exact hs.removeDoomed gone

/-- Keys stay unique. -/
theorem Becomes.keysUnique (h : Becomes deletes s t) (hs : s.KeysUnique) : t.KeysUnique := by
  induction h with
  | refl => exact hs
  | tail _ hchange ih => exact hchange.keysUnique ih

/-- A change that deletes nothing adds logs at most. -/
theorem Change.logs_grow (h : Change false s t) : s.logs.Grows t.logs := by
  have hsame : ∀ {logs : Table Log}, logs = s.logs → s.logs.Grows logs := by
    rintro _ rfl
    exact Std.Refl.refl _
  cases h with
  | addUser hadd =>
      rw [Store.addUser] at hadd
      split at hadd <;> cases hadd
      exact hsame rfl
  | addLabel hadd =>
      rw [Store.addLabel] at hadd
      split at hadd <;> cases hadd
      refine hsame ?_
      generalize ‹LabelKind› = kind
      cases kind <;> rfl
  | addLink s n tag =>
      refine hsame ?_
      rw [Store.addLink]
      split <;> rfl
  | removeLinks => exact hsame rfl
  | addLog s log => exact Table.grows_insert _ log
  | rows hguarded => exact hsame (guarded_eq_iff.1 hguarded).2.2.2
  | remove hdeletes => cases hdeletes

/-- Without deletions, logs are only added. -/
theorem Becomes.logs_grow (h : Becomes false s t) : s.logs.Grows t.logs := by
  induction h with
  | refl => exact Std.Refl.refl _
  | tail _ hchange ih => exact IsTrans.trans _ _ _ ih hchange.logs_grow

end Store

end Rulebook
