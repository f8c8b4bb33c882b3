import AibomWebhook.Library.JsonText
import Mathlib.Order.Basic
import Mathlib.Data.Bool.AllAny

/-! The strings in JSON texts: the UTF-16 code units that one stands for, the characters
that are read from it, and how characters are written in texts that may be put into
HTML. -/

namespace JsonText

/-! UTF-16. -/

def utf16 (c : Char) : List Nat :=
  if c.toNat < 0x10000 then [c.toNat]
  else [0xD800 + (c.toNat - 0x10000) / 0x400, 0xDC00 + (c.toNat - 0x10000) % 0x400]

def isHigh (unit : Nat) : Bool := 0xD800 ≤ unit && unit < 0xDC00
def isLow (unit : Nat) : Bool := 0xDC00 ≤ unit && unit < 0xE000

def combine (high low : Nat) : Char := Char.ofNat (0x10000 + (high - 0xD800) * 0x400 + (low - 0xDC00))

/-- A surrogate by itself is replaced. -/
def single (unit : Nat) : Char := if isHigh unit || isLow unit then '\uFFFD' else Char.ofNat unit

def characters : List Nat → List Char
  | [] => []
  | [unit] => [single unit]
  | unit :: next :: rest =>
    if isHigh unit && isLow next then combine unit next :: characters rest
    else single unit :: characters (next :: rest)

/-- A character is no surrogate and not too large. -/
theorem valid (c : Char) : c.toNat < 0xD800 ∨ 0xDFFF < c.toNat ∧ c.toNat < 0x110000 := c.valid

theorem characters_single {unit : Nat} (lone : isHigh unit = false) (rest : List Nat) :
    characters (unit :: rest) = single unit :: characters rest := by
  cases rest with
  | nil => rfl
  | cons next rest => simp [characters, lone]

/-- A character is read back from its units. -/
theorem characters_utf16 (c : Char) (rest : List Nat) : characters (utf16 c ++ rest) = c :: characters rest := by
  have range := valid c
  unfold utf16
  split
  · rename_i small
    have high : isHigh c.toNat = false := by simp [isHigh]; omega
    have low : isLow c.toNat = false := by simp [isLow]; omega
    rw [List.singleton_append, characters_single high, single, high, low]
    simp
  · rename_i large
    have high : isHigh (0xD800 + (c.toNat - 0x10000) / 0x400) = true := by simp [isHigh]; omega
    have low : isLow (0xDC00 + (c.toNat - 0x10000) % 0x400) = true := by simp [isLow]; omega
    have together : combine (0xD800 + (c.toNat - 0x10000) / 0x400) (0xDC00 + (c.toNat - 0x10000) % 0x400) = c := by
      have sum : 0x10000 + (0xD800 + (c.toNat - 0x10000) / 0x400 - 0xD800) * 0x400 +
          (0xDC00 + (c.toNat - 0x10000) % 0x400 - 0xDC00) = c.toNat := by omega
      rw [combine, sum, Char.ofNat_toNat]
    simp only [List.cons_append, List.nil_append, characters, high, low, Bool.and_self, if_true, together]

theorem characters_flatMap_utf16 (text : List Char) : characters (text.flatMap utf16) = text := by
  induction text with
  | nil => rfl
  | cons c text ih => rw [List.flatMap_cons, characters_utf16, ih]

/-! Letters. -/

def hexValue (c : Char) : Nat :=
  if c.isDigit then c.toNat - 48 else if 'a' ≤ c then c.toNat - 87 else c.toNat - 55

/-- What the letter after a backslash stands for. -/
def shortValue (c : Char) : Char :=
  if c = 'b' then '\x08' else if c = 'f' then '\x0C' else if c = 'n' then '\n' else if c = 'r' then '\r'
  else if c = 't' then '\t' else c

def Glyph.units : Glyph → List Nat
  | .plain c => utf16 c
  | .short c => utf16 (shortValue c)
  | .unicode a b c d => [hexValue a * 0x1000 + hexValue b * 0x100 + hexValue c * 0x10 + hexValue d]

/-- The code units of a string. -/
def units (body : List Glyph) : List Nat := body.flatMap Glyph.units

/-- The characters of a string. -/
def unescape (body : List Glyph) : List Char := characters (units body)

/-! Writing. -/

/-- The letters that are not left as they are, for the sake of HTML and JavaScript. -/
def isHtml (c : Char) : Bool := ['<', '>', '&', '\u2028', '\u2029'].contains c

def unicodeOf (n : Nat) : Glyph :=
  .unicode (n / 0x1000 % 16).digitChar (n / 0x100 % 16).digitChar (n / 0x10 % 16).digitChar (n % 16).digitChar

def escapeChar (c : Char) : Glyph :=
  if c = '"' ∨ c = '\\' then .short c
  else if c = '\x08' then .short 'b'
  else if c = '\x0C' then .short 'f'
  else if c = '\n' then .short 'n'
  else if c = '\r' then .short 'r'
  else if c = '\t' then .short 't'
  else if c < ' ' ∨ isHtml c then unicodeOf c.toNat
  else .plain c

def escape (text : List Char) : List Glyph := text.map escapeChar

/-- A string that is already written. -/
def Glyph.compact : Glyph → Glyph
  | .plain c => if isHtml c then unicodeOf c.toNat else .plain c
  | glyph => glyph

theorem Glyph.compact_plain (c : Char) :
    (Glyph.plain c).compact = if isHtml c then unicodeOf c.toNat else .plain c := rfl

theorem hex_digitChar : ∀ n < 16, isHex n.digitChar = true ∧ hexValue n.digitChar = n := by decide

theorem unicode_legal (n : Nat) : (unicodeOf n).legal = true := by
  simp only [unicodeOf, Glyph.legal, Bool.and_eq_true]
  exact ⟨⟨⟨(hex_digitChar _ (Nat.mod_lt _ (by decide))).1, (hex_digitChar _ (Nat.mod_lt _ (by decide))).1⟩,
    (hex_digitChar _ (Nat.mod_lt _ (by decide))).1⟩, (hex_digitChar _ (Nat.mod_lt _ (by decide))).1⟩

theorem units_unicode {n : Nat} (small : n < 0x10000) : (unicodeOf n).units = [n] := by
  have digit (k : Nat) : hexValue (k % 16).digitChar = k % 16 := (hex_digitChar _ (Nat.mod_lt _ (by decide))).2
  simp only [unicodeOf, Glyph.units, digit, List.cons.injEq, and_true]
  omega

theorem isHtml_lt {c : Char} (html : isHtml c = true) : c.toNat < 0x10000 := by
  simp only [isHtml, List.contains_iff_mem] at html
  have each : ∀ d ∈ ['<', '>', '&', '\u2028', '\u2029'], d.toNat < 0x10000 := List.all_iff_forall_prop.mp (by decide)
  exact each c html

theorem units_unicode_char {c : Char} (small : c.toNat < 0x10000) : (unicodeOf c.toNat).units = utf16 c := by
  rw [units_unicode small, utf16, if_pos small]

theorem units_escapeChar (c : Char) : (escapeChar c).units = utf16 c := by
  unfold escapeChar
  split
  · rename_i quoted
    rcases quoted with rfl | rfl <;> rfl
  · split
    · subst c; rfl
    · split
      · subst c; rfl
      · split
        · subst c; rfl
        · split
          · subst c; rfl
          · split
            · subst c; rfl
            · split
              · rename_i special
                refine units_unicode_char ?_
                rcases special with control | html
                · exact Nat.lt_trans control (by decide)
                · exact isHtml_lt html
              · rfl

theorem units_escape (text : List Char) : units (escape text) = text.flatMap utf16 := by
  simp only [units, escape, List.flatMap_map, units_escapeChar]

/-- Characters that were written are read back. -/
theorem unescape_escape (text : List Char) : unescape (escape text) = text := by
  rw [unescape, units_escape, characters_flatMap_utf16]

theorem escapeChar_legal (c : Char) : (escapeChar c).legal = true := by
  unfold escapeChar
  split
  · rename_i quoted
    rcases quoted with rfl | rfl <;> rfl
  · rename_i quoted
    rw [not_or] at quoted
    iterate 5 (split; rfl)
    split
    · exact unicode_legal _
    · rename_i plain
      rw [not_or] at plain
      simp only [Glyph.legal, Bool.and_eq_true, decide_eq_true_eq]
      exact ⟨quoted, Char.not_lt.mp plain.1⟩

theorem escape_legal (text : List Char) : (escape text).all Glyph.legal = true := by
  simp only [escape, List.all_map, List.all_eq_true]
  exact fun c _ => escapeChar_legal c

@[simp] theorem Glyph.units_compact (glyph : Glyph) : glyph.compact.units = glyph.units := by
  cases glyph with
  | plain c =>
    rw [Glyph.compact_plain]
    split
    · rename_i html
      exact units_unicode_char (isHtml_lt html)
    · rfl
  | short c => rfl
  | unicode a b c d => rfl

theorem units_map_compact (body : List Glyph) : units (body.map Glyph.compact) = units body := by
  simp only [units, List.flatMap_map, Glyph.units_compact]

theorem Glyph.compact_legal {glyph : Glyph} (legal : glyph.legal = true) : glyph.compact.legal = true := by
  cases glyph with
  | plain c =>
    rw [Glyph.compact_plain]
    split
    · exact unicode_legal _
    · exact legal
  | short c => exact legal
  | unicode a b c d => exact legal

@[simp] theorem Glyph.compact_compact (glyph : Glyph) : glyph.compact.compact = glyph.compact := by
  cases glyph with
  | plain c =>
    by_cases html : isHtml c = true
    · simp [Glyph.compact, html, unicodeOf]
    · simp [Glyph.compact, html]
  | short c => rfl
  | unicode a b c d => rfl

end JsonText
