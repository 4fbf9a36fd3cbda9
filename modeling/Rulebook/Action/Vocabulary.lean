import Rulebook.Vocabulary

/-!
# The words of actions

What a rule does to the transactions that it matches.  The family of an action says what value it
takes: the number of a row, a text, or none.

## Main definitions

* `ActionKind`, `ActionFamily` — the vocabularies.
* `ActionKind.family` — the family of a kind.
-/

namespace Rulebook

/-- What value an action takes. -/
inductive ActionFamily where
  | identifier
  | text
  | valueless
deriving DecidableEq, Repr, Inhabited

instance : Vocabulary ActionFamily where
  title := "ActionFamily"
  members := [.identifier, .text, .valueless]
  code
    | .identifier => "id_based"
    | .text => "string_based"
    | .valueless => "valueless"
  label? _ := none

/-- What an action does. -/
inductive ActionKind where
  | setCategory
  | setMerchant
  | addTag
  | removeTag
  | removeAllTags
  | setDescription
  | appendDescription
  | prependDescription
  | setNote
  | appendNote
  | setType
  | markReconciled
  | sendNotification
  | createTag
  | createCategory
  | createMerchant
deriving DecidableEq, Repr, Inhabited

instance : Vocabulary ActionKind where
  title := "ActionType"
  members :=
    [.setCategory, .setMerchant, .addTag, .removeTag, .removeAllTags, .setDescription,
      .appendDescription, .prependDescription, .setNote, .appendNote, .setType, .markReconciled,
      .sendNotification, .createTag, .createCategory, .createMerchant]
  code
    | .setCategory => "set_category"
    | .setMerchant => "set_merchant"
    | .addTag => "add_tag"
    | .removeTag => "remove_tag"
    | .removeAllTags => "remove_all_tags"
    | .setDescription => "set_description"
    | .appendDescription => "append_description"
    | .prependDescription => "prepend_description"
    | .setNote => "set_note"
    | .appendNote => "append_note"
    | .setType => "set_type"
    | .markReconciled => "mark_reconciled"
    | .sendNotification => "send_notification"
    | .createTag => "create_tag_if_not_exists"
    | .createCategory => "create_category_if_not_exists"
    | .createMerchant => "create_merchant_if_not_exists"
  label?
    | .setCategory => some "Set category"
    | .setMerchant => some "Set merchant"
    | .addTag => some "Add tag"
    | .removeTag => some "Remove tag"
    | .removeAllTags => some "Remove all tags"
    | .setDescription => some "Set description"
    | .appendDescription => some "Append to description"
    | .prependDescription => some "Prepend to description"
    | .setNote => some "Set note"
    | .appendNote => some "Append to note"
    | .setType => some "Set type"
    | .markReconciled => some "Mark as reconciled"
    | .sendNotification => some "Send notification"
    | .createTag => some "Create tag if not exists"
    | .createCategory => some "Create category if not exists"
    | .createMerchant => some "Create merchant if not exists"

/-- The family of a kind.  A notification may do without its message, so it counts as taking no
value. -/
def ActionKind.family : ActionKind → ActionFamily
  | .setCategory | .setMerchant | .addTag | .removeTag => .identifier
  | .removeAllTags | .markReconciled | .sendNotification => .valueless
  | _ => .text

end Rulebook
