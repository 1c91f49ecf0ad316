import Notifkit.Pipeline.Snapshot
import Notifkit.Repositories.UserTables

/-!
# The tables of contacts

A contact is an address of a user on a channel: a user has each address once. Next to it the topics
the user chose for this address are kept. Adding a contact that is there enables it again.

The database takes no text with a null character: a statement with one is refused as a whole.
-/

namespace Notifkit.Repositories

open Pipeline Upserts

/-- The database can hold a text. -/
def storable (text : Text) : Bool := decide ('\x00' ∉ text)

/-- `{ ...first, ...second }` -/
def Choices.spread (first second : Choices) : Choices where
  entries := putAll first.entries second.entries
  distinct := putAll_distinct first.distinct second.entries

/-- What was spread last counts. -/
theorem Choices.lastOf_spread (first second : Choices) (topic : Text) :
    lastOf topic (first.spread second).entries none =
      lastOf topic second.entries (lastOf topic first.entries none) :=
  lastOf_putAll first.distinct second.entries topic

/-- Where a contact lies: the id of its user, its channel and its target. -/
abbrev ContactKey := Uuid × NotificationChannel × Text

structure ContactRow where
  label : Option Text := none
  isPrimary : Bool := false
  enabled : Bool := true
deriving DecidableEq

/-- The rows of users, which have an id each. -/
structure UserRows where
  id : Text × Text → Option Uuid
  primary : ∀ {key key' uuid}, id key = some uuid → id key' = some uuid → key = key'

/-- The ids of the rows of contacts. -/
structure ContactIds where
  uuid : ContactKey → Uuid
  apart : Function.Injective uuid

@[ext]
structure ContactTables where
  contacts : Table ContactKey ContactRow := fun _ => none
  topics : Table (Uuid × Text) Bool := fun _ => none

/-- Channels are written differently. -/
theorem channel_apart {channel channel' : NotificationChannel}
    (same : channel.name = channel'.name) : channel = channel' := by
  revert same
  cases channel <;> cases channel' <;> decide

/-- No name of a channel has a mark of composed keys in it. -/
theorem channel_plain (channel : NotificationChannel) :
    ':' ∉ channel.name ∧ '\x00' ∉ channel.name := by
  cases channel <;> decide

/-- `${userId}:${channel}:${target}` -/
def composedKey (key : ContactKey) : Text :=
  key.1.text ++ ':' :: (key.2.1.name ++ ':' :: key.2.2)

/-- Composed keys tell contacts apart. -/
theorem composedKey_injective : Function.Injective composedKey := by
  rintro ⟨⟨id, plain⟩, channel, target⟩ ⟨⟨id', plain'⟩, channel', target'⟩ same
  obtain ⟨rfl, rest⟩ := first_mark plain plain' same
  obtain ⟨name, rfl⟩ := first_mark (channel_plain channel).1 (channel_plain channel').1 rest
  obtain rfl := channel_apart name
  rfl

/-- `${userId}\u0000${channel}\u0000${target}` -/
def addressKey (userId : Text) (channel : NotificationChannel) (target : Text) : Text :=
  userId ++ '\x00' :: (channel.name ++ '\x00' :: target)

/-- For users the database can hold these keys tell addresses apart. -/
theorem addressKey_apart {userId userId' : Text} {channel channel' : NotificationChannel}
    {target target' : Text} (held : storable userId = true) (held' : storable userId' = true)
    (same : addressKey userId channel target = addressKey userId' channel' target') :
    userId = userId' ∧ channel = channel' ∧ target = target' := by
  obtain ⟨user, rest⟩ := first_mark (of_decide_eq_true held) (of_decide_eq_true held') same
  obtain ⟨name, text⟩ := first_mark (channel_plain channel).2 (channel_plain channel').2 rest
  exact ⟨user, channel_apart name, text⟩

end Notifkit.Repositories
