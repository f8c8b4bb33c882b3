import AibomWebhook.Library.JsonNumber
import AibomWebhook.Library.JsonString

/-! What `json.dumps` of Python writes: strings in ASCII, integers, objects of named
members, and the white space that is there by default. -/

namespace PyJson
open JsonText

/-- A letter, in ASCII. -/
def asciiGlyphs (c : Char) : List Glyph :=
  if c = '"' ∨ c = '\\' then [.short c]
  else if c = '\n' then [.short 'n']
  else if c = '\r' then [.short 'r']
  else if c = '\t' then [.short 't']
  else if c = '\x0C' then [.short 'f']
  else if c = '\x08' then [.short 'b']
  else if ' ' ≤ c ∧ c ≤ '~' then [.plain c]
  else (utf16 c).map unicodeOf

def glyphs (text : String) : List Glyph := text.toList.flatMap asciiGlyphs

def string (text : String) : Raw := .string (glyphs text)

def integer (n : Int) : Literal :=
  { negative := n < 0, whole := Nat.toDigits 10 n.natAbs, fraction := none, exponent := none }

def object (members : List (String × Raw)) : Raw := .object (members.map fun member => (glyphs member.1, member.2))

mutual

/-- The text with a space after every comma and colon. -/
def spaced : Raw → List Char
  | .array [] => ['[', ']']
  | .array (item :: rest) => '[' :: (spaced item ++ spacedItems rest)
  | .object [] => ['{', '}']
  | .object ((key, raw) :: rest) => '{' :: '"' :: (bodyChars key ++ ':' :: ' ' :: (spaced raw ++ spacedMembers rest))
  | raw => raw.chars

def spacedItems : List Raw → List Char
  | [] => [']']
  | item :: rest => ',' :: ' ' :: (spaced item ++ spacedItems rest)

def spacedMembers : List (List Glyph × Raw) → List Char
  | [] => ['}']
  | (key, raw) :: rest =>
    ',' :: ' ' :: '"' :: (bodyChars key ++ ':' :: ' ' :: (spaced raw ++ spacedMembers rest))

end

theorem asciiGlyphs_legal (c : Char) : (asciiGlyphs c).all Glyph.legal = true := by
  unfold asciiGlyphs
  split
  · rename_i quoted
    rcases quoted with rfl | rfl <;> rfl
  · rename_i quoted
    rw [not_or] at quoted
    iterate 5 (split; rfl)
    split
    · rename_i visible
      simp [Glyph.legal, quoted.1, quoted.2, visible.1]
    · rw [List.all_map, List.all_eq_true]
      exact fun unit _ => unicode_legal unit

theorem glyphs_legal (text : String) : (glyphs text).all Glyph.legal = true := by
  rw [glyphs, List.all_flatMap, List.all_eq_true]
  exact fun c _ => asciiGlyphs_legal c

theorem string_legal (text : String) : (string text).legal = true := glyphs_legal text

theorem integer_legal (n : Int) : (integer n).legal = true := by
  have zero : n.natAbs ≠ 0 → (Nat.toDigits 10 n.natAbs).head? ≠ some '0' := toDigits_head
  by_cases none_ : n.natAbs = 0
  · have whole : (integer n).whole = ['0'] := by rw [integer, none_]; rfl
    simp only [Literal.legal, whole]
    rfl
  · have digits := isDigits_toDigits n.natAbs
    simp [Literal.legal, integer, digits, zero none_]

theorem object_legal {members : List (String × Raw)} (each : ∀ member ∈ members, member.2.legal = true) :
    (object members).legal = true := by
  rw [object, Raw.legal]
  induction members with
  | nil => rfl
  | cons member rest ih =>
    have later := ih fun other inside => each other (List.mem_cons_of_mem member inside)
    rw [List.map_cons, legalMembers, glyphs_legal, each member List.mem_cons_self, later]
    rfl

theorem array_legal {items : List Raw} (each : ∀ item ∈ items, item.legal = true) : (Raw.array items).legal = true := by
  rw [Raw.legal]
  induction items with
  | nil => rfl
  | cons item rest ih =>
    have later := ih fun other inside => each other (List.mem_cons_of_mem item inside)
    rw [legalItems, each item List.mem_cons_self, later]
    rfl

end PyJson
