import Mathlib.Logic.Function.Basic
import Notifkit.Pipeline.Snapshot

/-!
# Query parameters

What handlers read of a request's query. A page size is read leniently: a text that begins with a
number counts as it, any other as the default, and the number is clamped. Other values go to the
database as they are, which takes no text with a NUL character and only its own channels.
-/

namespace Notifkit.Api

open Pipeline

/-- `ctx.query`: the first value of each parameter. -/
abbrev QueryParams := Text → Option Text

/-- `getQueryParam` -/
def getQueryParam (query : QueryParams) (key : Text) : Option Text := query key

/-- The number at the beginning of some digits. -/
def leadingNumber (text : Text) : Option Nat :=
  match text.takeWhile Char.isDigit with
  | [] => none
  | digits => some (Nat.ofDigitChars 10 digits 0)

/-- `parseInt(text, 10)`, absent where it is NaN. -/
def parseInt (text : Text) : Option Int :=
  match text.dropWhile Text.isWhitespace with
  | '-' :: rest => (leadingNumber rest).map fun number => -(number : Int)
  | '+' :: rest => (leadingNumber rest).map fun number => (number : Int)
  | rest => (leadingNumber rest).map fun number => (number : Int)

/-- `parseLimit` -/
def parseLimit (query : QueryParams) (fallback : Nat) (max : Nat) : Nat :=
  match parseInt ((getQueryParam query "limit".toList).getD []) with
  | none => fallback
  | some n => (min (n ⊔ 1) max).toNat

/-- A value of the channel type. -/
def channelOf (text : Text) : Option NotificationChannel :=
  [.email, .sms, .push, .webhook, .inApp, .telegram, .discord, .whatsapp, .slack].find?
    fun channel : NotificationChannel => channel.name = text

/-- A text the database can take. -/
def storable (text : Text) : Option Text := if '\x00' ∈ text then none else some text

/-- The same query for the page a cursor leads to. -/
def withCursor (query : QueryParams) (cursor : Option Text) : QueryParams :=
  Function.update query "cursor".toList cursor

theorem getQueryParam_cursor (query : QueryParams) (cursor : Option Text) :
    getQueryParam (withCursor query cursor) "cursor".toList = cursor := by
  unfold getQueryParam withCursor
  exact Function.update_self _ _ _

/-- A page is asked for as the one before, but for its cursor. -/
theorem getQueryParam_withCursor (query : QueryParams) (cursor : Option Text) {key : Text}
    (apart : key ≠ "cursor".toList) :
    getQueryParam (withCursor query cursor) key = getQueryParam query key :=
  Function.update_of_ne apart _ _

theorem parseLimit_withCursor (query : QueryParams) (cursor : Option Text) (fallback max : Nat) :
    parseLimit (withCursor query cursor) fallback max = parseLimit query fallback max := by
  unfold parseLimit
  rw [getQueryParam_withCursor query cursor (by decide)]

/-- A page has room. -/
theorem parseLimit_pos {query : QueryParams} {fallback max : Nat} (default : 0 < fallback)
    (room : 0 < max) : 0 < parseLimit query fallback max := by
  unfold parseLimit
  split
  · exact default
  · omega

example : parseLimit (fun _ => some "12abc".toList) 50 100 = 12 := by decide

end Notifkit.Api
