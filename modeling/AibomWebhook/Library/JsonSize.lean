import AibomWebhook.Library.JsonText
import Mathlib.Data.String.Basic

/-! The number of bytes that a tree takes in UTF-8, by its structure. -/

namespace JsonText
open String

mutual

def Raw.bytes : Raw → Nat
  | .null => 4
  | .bool true => 4
  | .bool false => 5
  | .number literal => utf8Len literal.chars
  | .string body => utf8Len (bodyChars body) + 1
  | .array [] => 2
  | .array (item :: rest) => item.bytes + itemsBytes rest + 1
  | .object [] => 2
  | .object ((key, value) :: rest) => utf8Len (bodyChars key) + value.bytes + membersBytes rest + 3

def itemsBytes : List Raw → Nat
  | [] => 1
  | item :: rest => item.bytes + itemsBytes rest + 1

def membersBytes : List (List Glyph × Raw) → Nat
  | [] => 1
  | (key, value) :: rest => utf8Len (bodyChars key) + value.bytes + membersBytes rest + 3

end

mutual

theorem utf8Len_chars (raw : Raw) : utf8Len raw.chars = raw.bytes := by
  cases raw with
  | null => rfl
  | bool value => cases value <;> rfl
  | number literal => simp only [Raw.chars, Raw.bytes]
  | string body => simp only [Raw.chars, Raw.bytes, utf8Len_cons]; rfl
  | array items =>
    cases items with
    | nil => rfl
    | cons item rest =>
      have first := utf8Len_chars item
      have later := utf8Len_itemsChars rest
      simp only [Raw.chars, Raw.bytes, utf8Len_cons, utf8Len_append, first, later]
      rfl
  | object members =>
    cases members with
    | nil => rfl
    | cons member rest =>
      obtain ⟨key, value⟩ := member
      have first := utf8Len_chars value
      have later := utf8Len_membersChars rest
      have colon : Char.utf8Size ':' = 1 := rfl
      have quote : Char.utf8Size '"' = 1 := rfl
      have brace : Char.utf8Size '\x7b' = 1 := rfl
      simp only [Raw.chars, Raw.bytes, utf8Len_cons, utf8Len_append, first, later, colon, quote, brace]
      omega

theorem utf8Len_itemsChars (items : List Raw) : utf8Len (itemsChars items) = itemsBytes items := by
  cases items with
  | nil => rfl
  | cons item rest =>
    have first := utf8Len_chars item
    have later := utf8Len_itemsChars rest
    simp only [itemsChars, itemsBytes, utf8Len_cons, utf8Len_append, first, later]
    rfl

theorem utf8Len_membersChars (members : List (List Glyph × Raw)) :
    utf8Len (membersChars members) = membersBytes members := by
  cases members with
  | nil => rfl
  | cons member rest =>
    obtain ⟨key, value⟩ := member
    have first := utf8Len_chars value
    have later := utf8Len_membersChars rest
    have colon : Char.utf8Size ':' = 1 := rfl
    have quote : Char.utf8Size '"' = 1 := rfl
    have comma : Char.utf8Size ',' = 1 := rfl
    simp only [membersChars, membersBytes, utf8Len_cons, utf8Len_append, first, later, colon, quote, comma]
    omega

end

theorem utf8ByteSize_text (raw : Raw) : raw.text.utf8ByteSize = raw.bytes := by
  rw [Raw.text, utf8ByteSize_ofList, utf8Len_chars]

end JsonText
