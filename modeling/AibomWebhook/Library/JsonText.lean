import Mathlib.Tactic.Common

/-! JSON texts: the tree of one, with its numbers and strings as they are written, how
it is printed without white space, and how any text is read. A printed tree is read
back. -/

namespace JsonText

/-- A letter of a string, as it is written. -/
inductive Glyph where
  | plain (c : Char)
  | short (c : Char)
  | unicode (a b c d : Char)
  deriving DecidableEq, Repr

/-- A number, as it is written; the exponent has its mark, its sign and its digits. -/
structure Literal where
  negative : Bool
  whole : List Char
  fraction : Option (List Char)
  exponent : Option (Char × Option Char × List Char)
  deriving DecidableEq, Repr

inductive Raw where
  | null
  | bool (value : Bool)
  | number (literal : Literal)
  | string (body : List Glyph)
  | array (items : List Raw)
  | object (members : List (List Glyph × Raw))

theorem Raw.induct {holds : Raw → Prop} (null : holds .null) (bool : ∀ value, holds (.bool value))
    (number : ∀ literal, holds (.number literal)) (string : ∀ body, holds (.string body))
    (array : ∀ items, (∀ item ∈ items, holds item) → holds (.array items))
    (object : ∀ members, (∀ member ∈ members, holds member.2) → holds (.object members)) : ∀ raw, holds raw
  | .null => null
  | .bool value => bool value
  | .number literal => number literal
  | .string body => string body
  | .array items => array items fun item _ => Raw.induct null bool number string array object item
  | .object members => object members fun member _ => Raw.induct null bool number string array object member.2
termination_by raw => sizeOf raw
decreasing_by
  · have smaller := List.sizeOf_lt_of_mem ‹_ ∈ items›
    simp only [Raw.array.sizeOf_spec]
    omega
  · have smaller := List.sizeOf_lt_of_mem ‹_ ∈ members›
    have inside : sizeOf member.2 < sizeOf member := by
      obtain ⟨key, value⟩ := member
      simp only [Prod.mk.sizeOf_spec]
      omega
    simp only [Raw.object.sizeOf_spec]
    omega

/-! What is legal. -/

def isHex (c : Char) : Bool := c.isDigit || ('a' ≤ c && c ≤ 'f') || ('A' ≤ c && c ≤ 'F')

def shorts : List Char := ['"', '\\', '/', 'b', 'f', 'n', 'r', 't']

def Glyph.legal : Glyph → Bool
  | .plain c => c ≠ '"' && c ≠ '\\' && ' ' ≤ c
  | .short c => shorts.contains c
  | .unicode a b c d => isHex a && isHex b && isHex c && isHex d

/-- Some digits, and nothing else. -/
def isDigits (digits : List Char) : Bool := digits ≠ [] && digits.all Char.isDigit

def Literal.legal (literal : Literal) : Bool :=
  isDigits literal.whole && (literal.whole.head? ≠ some '0' || literal.whole.length = 1) &&
    literal.fraction.all isDigits &&
    literal.exponent.all fun (mark, sign, digits) =>
      (mark = 'e' || mark = 'E') && sign.all (fun c => c = '+' || c = '-') && isDigits digits

mutual

def Raw.legal : Raw → Bool
  | .null => true
  | .bool _ => true
  | .number literal => literal.legal
  | .string body => body.all Glyph.legal
  | .array items => legalItems items
  | .object members => legalMembers members

def legalItems : List Raw → Bool
  | [] => true
  | item :: rest => item.legal && legalItems rest

def legalMembers : List (List Glyph × Raw) → Bool
  | [] => true
  | (key, value) :: rest => key.all Glyph.legal && value.legal && legalMembers rest

end

mutual

/-- How deep arrays and objects are nested. -/
def Raw.depth : Raw → Nat
  | .array items => depthItems items + 1
  | .object members => depthMembers members + 1
  | _ => 0

def depthItems : List Raw → Nat
  | [] => 0
  | item :: rest => max item.depth (depthItems rest)

def depthMembers : List (List Glyph × Raw) → Nat
  | [] => 0
  | (_, value) :: rest => max value.depth (depthMembers rest)

end

/-! Printing. -/

def Glyph.chars : Glyph → List Char
  | .plain c => [c]
  | .short c => ['\\', c]
  | .unicode a b c d => ['\\', 'u', a, b, c, d]

/-- A string with its closing quote. -/
def bodyChars (body : List Glyph) : List Char := body.flatMap Glyph.chars ++ ['"']

def fractionChars : Option (List Char) → List Char
  | none => []
  | some digits => '.' :: digits

def exponentChars : Option (Char × Option Char × List Char) → List Char
  | none => []
  | some (mark, sign, digits) => mark :: (sign.toList ++ digits)

def Literal.chars (literal : Literal) : List Char :=
  (if literal.negative then ['-'] else []) ++ literal.whole ++
    fractionChars literal.fraction ++ exponentChars literal.exponent

mutual

def Raw.chars : Raw → List Char
  | .null => ['n', 'u', 'l', 'l']
  | .bool true => ['t', 'r', 'u', 'e']
  | .bool false => ['f', 'a', 'l', 's', 'e']
  | .number literal => literal.chars
  | .string body => '"' :: bodyChars body
  | .array [] => ['[', ']']
  | .array (item :: rest) => '[' :: (item.chars ++ itemsChars rest)
  | .object [] => ['{', '}']
  | .object ((key, value) :: rest) => '{' :: '"' :: (bodyChars key ++ ':' :: (value.chars ++ membersChars rest))

/-- The items of an array after the first, with the closing bracket. -/
def itemsChars : List Raw → List Char
  | [] => [']']
  | item :: rest => ',' :: (item.chars ++ itemsChars rest)

def membersChars : List (List Glyph × Raw) → List Char
  | [] => ['}']
  | (key, value) :: rest => ',' :: '"' :: (bodyChars key ++ ':' :: (value.chars ++ membersChars rest))

end

def Raw.text (raw : Raw) : String := String.ofList raw.chars

/-! Reading. -/

def isSpace (c : Char) : Bool := c = ' ' || c = '\t' || c = '\r' || c = '\n'

def skip (text : List Char) : List Char := text.dropWhile isSpace

def glyphs : List Char → Option (List Glyph × List Char)
  | [] => none
  | c :: rest =>
    if c = '"' then some ([], rest)
    else if c = '\\' then
      match rest with
      | [] => none
      | e :: rest =>
        if e = 'u' then
          match rest with
          | a :: b :: c :: d :: rest =>
            if (Glyph.unicode a b c d).legal then (glyphs rest).map fun (body, rest) => (.unicode a b c d :: body, rest)
            else none
          | _ => none
        else if (Glyph.short e).legal then (glyphs rest).map fun (body, rest) => (.short e :: body, rest)
        else none
    else if (Glyph.plain c).legal then (glyphs rest).map fun (body, rest) => (.plain c :: body, rest)
    else none

/-- The digits that a text begins with, if any. -/
def digits (text : List Char) : Option (List Char × List Char) :=
  let found := text.takeWhile Char.isDigit
  if found = [] then none else some (found, text.dropWhile Char.isDigit)

def fraction (text : List Char) : Option (Option (List Char) × List Char) :=
  if text.head? = some '.' then (digits text.tail).map fun (found, rest) => (some found, rest)
  else some (none, text)

def sign (text : List Char) : Option Char × List Char :=
  if text.head? = some '+' ∨ text.head? = some '-' then (text.head?, text.tail) else (none, text)

def exponent (text : List Char) : Option (Option (Char × Option Char × List Char) × List Char) :=
  match text with
  | [] => some (none, [])
  | mark :: rest =>
    if mark = 'e' ∨ mark = 'E' then
      (digits (sign rest).2).map fun (found, after) => (some (mark, (sign rest).1, found), after)
    else some (none, mark :: rest)

def minus (text : List Char) : Bool × List Char :=
  if text.head? = some '-' then (true, text.tail) else (false, text)

def number (text : List Char) : Option (Literal × List Char) :=
  match digits (minus text).2 with
  | none => none
  | some (whole, rest) =>
    match fraction rest with
    | none => none
    | some (fraction, rest) =>
      match exponent rest with
      | none => none
      | some (exponent, rest) =>
        let literal : Literal :=
          { negative := (minus text).1, whole := whole, fraction := fraction, exponent := exponent }
        if literal.legal then some (literal, rest) else none

/-- The rest of a word of which the first letter was read. -/
def word (letters : List Char) (raw : Raw) (text : List Char) : Option (Raw × List Char) :=
  if letters <+: text then some (raw, text.drop letters.length) else none

mutual

/-- A value that may be nested so deep; each call uses up some fuel. -/
def value (depth : Nat) : Nat → List Char → Option (Raw × List Char)
  | 0, _ => none
  | fuel + 1, text =>
    match skip text with
    | [] => none
    | c :: rest =>
      if c = '"' then (glyphs rest).map fun (body, rest) => (.string body, rest)
      else if c = 'n' then word ['u', 'l', 'l'] .null rest
      else if c = 't' then word ['r', 'u', 'e'] (.bool true) rest
      else if c = 'f' then word ['a', 'l', 's', 'e'] (.bool false) rest
      else if c = '[' then
        if depth = 0 then none
        else if (skip rest).head? = some ']' then some (.array [], (skip rest).tail)
        else
          match value (depth - 1) fuel rest with
          | none => none
          | some (item, rest) => (items (depth - 1) fuel rest).map fun (more, rest) => (.array (item :: more), rest)
      else if c = '{' then
        if depth = 0 then none
        else if (skip rest).head? = some '}' then some (.object [], (skip rest).tail)
        else
          match member (depth - 1) fuel rest with
          | none => none
          | some (first, rest) =>
            (members (depth - 1) fuel rest).map fun (more, rest) => (.object (first :: more), rest)
      else (number (c :: rest)).map fun (literal, rest) => (.number literal, rest)
termination_by structural fuel => fuel

/-- The items of an array after the first. -/
def items (depth : Nat) : Nat → List Char → Option (List Raw × List Char)
  | 0, _ => none
  | fuel + 1, text =>
    match skip text with
    | [] => none
    | c :: rest =>
      if c = ']' then some ([], rest)
      else if c = ',' then
        match value depth fuel rest with
        | none => none
        | some (item, rest) => (items depth fuel rest).map fun (more, rest) => (item :: more, rest)
      else none
termination_by structural fuel => fuel

def member (depth : Nat) : Nat → List Char → Option ((List Glyph × Raw) × List Char)
  | 0, _ => none
  | fuel + 1, text =>
    match skip text with
    | [] => none
    | c :: rest =>
      if c = '"' then
        match glyphs rest with
        | none => none
        | some (key, rest) =>
          match skip rest with
          | [] => none
          | c :: rest => if c = ':' then (value depth fuel rest).map fun (found, rest) => ((key, found), rest) else none
      else none
termination_by structural fuel => fuel

def members (depth : Nat) : Nat → List Char → Option (List (List Glyph × Raw) × List Char)
  | 0, _ => none
  | fuel + 1, text =>
    match skip text with
    | [] => none
    | c :: rest =>
      if c = '}' then some ([], rest)
      else if c = ',' then
        match member depth fuel rest with
        | none => none
        | some (first, rest) => (members depth fuel rest).map fun (more, rest) => (first :: more, rest)
      else none
termination_by structural fuel => fuel

end

/-- The tree of a text that is nested at most so deep. -/
def parse (depth : Nat) (text : String) : Option Raw :=
  match value depth (2 * text.toList.length + 1) text.toList with
  | none => none
  | some (raw, rest) => if skip rest = [] then some raw else none

/-! What is printed is read back. -/

theorem glyphs_chars {glyph : Glyph} (legal : glyph.legal = true) (rest : List Char) :
    glyphs (glyph.chars ++ rest) = (glyphs rest).map fun (body, rest) => (glyph :: body, rest) := by
  cases glyph with
  | plain c =>
    have plain := legal
    simp only [Glyph.legal, Bool.and_eq_true, decide_eq_true_eq] at plain
    simp only [Glyph.chars, List.singleton_append]
    conv_lhs => unfold glyphs
    simp only [if_neg plain.1.1, if_neg plain.1.2, if_pos legal]
  | short c =>
    have other : c ≠ 'u' := by
      rintro rfl
      exact absurd legal (by decide)
    have quote : '\\' ≠ '"' := by decide
    simp only [Glyph.chars, List.cons_append, List.nil_append]
    conv_lhs => unfold glyphs
    simp only [if_neg quote, if_true, if_neg other, if_pos legal]
  | unicode a b c d =>
    have quote : '\\' ≠ '"' := by decide
    simp only [Glyph.chars, List.cons_append, List.nil_append]
    conv_lhs => unfold glyphs
    simp only [if_neg quote, if_true, if_pos legal]

theorem glyphs_bodyChars {body : List Glyph} (legal : body.all Glyph.legal = true) (rest : List Char) :
    glyphs (bodyChars body ++ rest) = some (body, rest) := by
  induction body with
  | nil =>
    have quote : bodyChars [] ++ rest = '"' :: rest := rfl
    rw [quote]
    unfold glyphs
    exact if_pos rfl
  | cons glyph body ih =>
    rw [List.all_cons, Bool.and_eq_true] at legal
    have whole : bodyChars (glyph :: body) ++ rest = glyph.chars ++ (bodyChars body ++ rest) := by
      simp [bodyChars]
    rw [whole, glyphs_chars legal.1, ih legal.2]
    rfl

/-- The text goes on with no digit. -/
def NoDigit (text : List Char) : Prop := ∀ c, text.head? = some c → c.isDigit = false

theorem digits_append {found rest : List Char} (legal : isDigits found = true) (stop : NoDigit rest) :
    digits (found ++ rest) = some (found, rest) := by
  simp only [isDigits, Bool.and_eq_true, decide_eq_true_eq] at legal
  obtain ⟨some_, all⟩ := legal
  have all_ : ∀ c ∈ found, c.isDigit = true := List.all_eq_true.mp all
  have none_ : rest.takeWhile Char.isDigit = [] ∧ rest.dropWhile Char.isDigit = rest := by
    cases rest with
    | nil => exact ⟨rfl, rfl⟩
    | cons c rest => simp [stop c rfl]
  simp only [digits, List.takeWhile_append_of_pos all_, List.dropWhile_append_of_pos all_, none_.1, none_.2,
    List.append_nil, if_neg some_]

/-- What may follow a value: the end, a comma or a closing bracket. -/
def Ends (text : List Char) : Prop := ∀ c, text.head? = some c → c = ',' ∨ c = ']' ∨ c = '}'

theorem Ends.ne {text : List Char} (ends : Ends text) {c : Char} (other : c ≠ ',' ∧ c ≠ ']' ∧ c ≠ '}') :
    text.head? ≠ some c := by
  intro head
  rcases ends c head with same | same | same
  · exact other.1 same
  · exact other.2.1 same
  · exact other.2.2 same

theorem Ends.noDigit {text : List Char} (ends : Ends text) : NoDigit text := by
  intro c head
  rcases ends c head with rfl | rfl | rfl <;> decide

theorem exponent_append {found : Option (Char × Option Char × List Char)} {rest : List Char} (ends : Ends rest)
    (legal : found.all (fun (mark, sign, digits) =>
      (mark = 'e' || mark = 'E') && sign.all (fun c => c = '+' || c = '-') && isDigits digits) = true) :
    exponent (exponentChars found ++ rest) = some (found, rest) := by
  cases found with
  | none =>
    cases rest with
    | nil => rfl
    | cons c rest =>
      have small : c ≠ 'e' := fun same => @Ends.ne _ ends 'e' (by decide) (congrArg some same)
      have large : c ≠ 'E' := fun same => @Ends.ne _ ends 'E' (by decide) (congrArg some same)
      simp [exponentChars, exponent, small, large]
  | some found =>
    obtain ⟨mark, plus, found⟩ := found
    simp only [Option.all_some, Bool.and_eq_true, Bool.or_eq_true, decide_eq_true_eq] at legal
    obtain ⟨⟨marked, signed⟩, digits_⟩ := legal
    have read : sign (plus.toList ++ found ++ rest) = (plus, found ++ rest) := by
      cases plus with
      | none =>
        cases found with
        | nil => exact absurd digits_ (by decide)
        | cons c found =>
          have digit : c.isDigit = true := by
            simp only [isDigits, List.all_cons, Bool.and_eq_true] at digits_
            exact digits_.2.1
          have plus : c ≠ '+' := by
            rintro rfl
            exact absurd digit (by decide)
          have minus : c ≠ '-' := by
            rintro rfl
            exact absurd digit (by decide)
          simp [sign, plus, minus]
      | some c =>
        simp only [Option.all_some, Bool.or_eq_true, decide_eq_true_eq] at signed
        simp [sign, signed]
    simp only [exponentChars, List.cons_append, exponent, if_pos marked, read, digits_append digits_ ends.noDigit, Option.map_some]

theorem fraction_append {found : Option (List Char)} {rest : List Char} (legal : found.all isDigits = true)
    (stop : NoDigit rest) (other : rest.head? ≠ some '.') :
    fraction (fractionChars found ++ rest) = some (found, rest) := by
  cases found with
  | none => simp [fractionChars, fraction, other]
  | some found =>
    have read := digits_append legal stop
    simp [fractionChars, fraction, read]

/-- What follows the digits of a number. -/
theorem exponentChars_head {found : Option (Char × Option Char × List Char)} {rest : List Char} (ends : Ends rest)
    (legal : found.all (fun (mark, sign, digits) =>
      (mark = 'e' || mark = 'E') && sign.all (fun c => c = '+' || c = '-') && isDigits digits) = true) :
    NoDigit (exponentChars found ++ rest) ∧ (exponentChars found ++ rest).head? ≠ some '.' := by
  cases found with
  | none => exact ⟨ends.noDigit, ends.ne (by decide)⟩
  | some found =>
    obtain ⟨mark, plus, found⟩ := found
    simp only [Option.all_some, Bool.and_eq_true, Bool.or_eq_true, decide_eq_true_eq] at legal
    constructor
    · intro c head
      obtain rfl := Option.some.inj head
      rcases legal.1.1 with rfl | rfl <;> decide
    · intro head
      have same : mark = '.' := Option.some.inj head
      rcases legal.1.1 with rfl | rfl <;> cases same

theorem fractionChars_head {found : Option (List Char)} {rest : List Char} (stop : NoDigit rest) :
    NoDigit (fractionChars found ++ rest) := by
  cases found with
  | none => exact stop
  | some found =>
    intro c head
    obtain rfl := Option.some.inj head
    decide

theorem number_append {literal : Literal} {rest : List Char} (legal : literal.legal = true) (ends : Ends rest) :
    number (literal.chars ++ rest) = some (literal, rest) := by
  have whole := legal
  simp only [Literal.legal, Bool.and_eq_true] at whole
  obtain ⟨⟨⟨digits_, _⟩, fractions⟩, exponents⟩ := whole
  obtain ⟨stop, other⟩ := exponentChars_head ends exponents
  have first := digits_append digits_ (@fractionChars_head literal.fraction _ stop)
  have second := fraction_append fractions stop other
  have third := exponent_append ends exponents
  have start : minus (literal.chars ++ rest) = (literal.negative,
      literal.whole ++ (fractionChars literal.fraction ++ (exponentChars literal.exponent ++ rest))) := by
    unfold Literal.chars
    cases sign : literal.negative with
    | true => simp [minus]
    | false =>
      cases written : literal.whole with
      | nil =>
        rw [written] at digits_
        exact absurd digits_ (by decide)
      | cons c more =>
        have digit : c.isDigit = true := by
          rw [written] at digits_
          simp only [isDigits, List.all_cons, Bool.and_eq_true] at digits_
          exact digits_.2.1
        have other : c ≠ '-' := by
          rintro rfl
          exact absurd digit (by decide)
        simp [minus, other]
  simp only [number, start, first, second, third]
  exact if_pos legal

theorem skip_cons {c : Char} (visible : isSpace c = false) (rest : List Char) : skip (c :: rest) = c :: rest := by
  simp [skip, visible]

theorem literal_head {literal : Literal} (legal : literal.legal = true) :
    ∃ c more, literal.chars = c :: more ∧ (c = '-' ∨ c.isDigit = true) := by
  unfold Literal.chars
  cases literal.negative with
  | true => exact ⟨'-', _, rfl, Or.inl rfl⟩
  | false =>
    cases written : literal.whole with
    | nil =>
      simp only [Literal.legal, written, isDigits, Bool.and_eq_true] at legal
      exact absurd legal.1.1.1.1 (by decide)
    | cons c more =>
      simp only [Literal.legal, written, isDigits, List.all_cons, Bool.and_eq_true] at legal
      exact ⟨c, _, rfl, Or.inr legal.1.1.1.2.1⟩

/-- The letters that begin no number. -/
def leading : List Char := ['"', 'n', 't', 'f', '[', '{', ']', '}', ' ', '\t', '\r', '\n']

theorem not_leading {c : Char} (begins : c = '-' ∨ c.isDigit = true) : c ∉ leading := by
  intro member
  simp only [leading, List.mem_cons, List.not_mem_nil, or_false] at member
  rcases begins with rfl | digit
  · revert member
    decide
  · rcases member with rfl | rfl | rfl | rfl | rfl | rfl | rfl | rfl | rfl | rfl | rfl | rfl <;>
      exact absurd digit (by decide)

/-- A value begins with a letter that is no space and closes nothing. -/
theorem chars_head {raw : Raw} (legal : raw.legal = true) :
    ∃ c more, raw.chars = c :: more ∧ isSpace c = false ∧ c ≠ ']' ∧ c ≠ '}' := by
  cases raw with
  | null => exact ⟨_, _, rfl, by decide⟩
  | bool value => cases value <;> exact ⟨_, _, rfl, by decide⟩
  | number literal =>
    obtain ⟨c, more, written, begins⟩ := literal_head legal
    have outside := not_leading begins
    simp only [leading, List.mem_cons, List.not_mem_nil, or_false, not_or] at outside
    refine ⟨c, more, written, ?_, ?_, ?_⟩
    · simp [isSpace, outside]
    · exact outside.2.2.2.2.2.2.1
    · exact outside.2.2.2.2.2.2.2.1
  | string body => exact ⟨_, _, rfl, by decide⟩
  | array items => cases items <;> exact ⟨_, _, rfl, by decide⟩
  | object members =>
    cases members with
    | nil => exact ⟨_, _, rfl, by decide⟩
    | cons member rest => exact ⟨_, _, rfl, by decide⟩

theorem ends_itemsChars (items : List Raw) (rest : List Char) : Ends (itemsChars items ++ rest) := by
  intro c head
  cases items with
  | nil => exact Or.inr (Or.inl (Option.some.inj head).symm)
  | cons item items => exact Or.inl (Option.some.inj head).symm

theorem ends_membersChars (members : List (List Glyph × Raw)) (rest : List Char) :
    Ends (membersChars members ++ rest) := by
  intro c head
  cases members with
  | nil => exact Or.inr (Or.inr (Option.some.inj head).symm)
  | cons member members => exact Or.inl (Option.some.inj head).symm

/-- A tree is read back wherever it may end. -/
def Reads (raw : Raw) : Prop :=
  ∀ depth fuel rest, raw.legal = true → raw.depth ≤ depth → raw.chars.length ≤ fuel → Ends rest →
    value depth fuel (raw.chars ++ rest) = some (raw, rest)

theorem items_itemsChars {list : List Raw} (each : ∀ item ∈ list, Reads item) {depth fuel : Nat} (rest : List Char)
    (legal : legalItems list = true) (shallow : depthItems list ≤ depth) (enough : (itemsChars list).length ≤ fuel) :
    items depth fuel (itemsChars list ++ rest) = some (list, rest) := by
  induction list generalizing fuel with
  | nil =>
    cases fuel with
    | zero => exact absurd enough (by decide)
    | succ fuel => simp [itemsChars, items, skip, isSpace]
  | cons item list ih =>
    cases fuel with
    | zero => exact absurd enough (Nat.not_succ_le_zero _)
    | succ fuel =>
      simp only [itemsChars, List.length_cons, List.length_append, Nat.add_le_add_iff_right] at enough
      simp only [legalItems, Bool.and_eq_true] at legal
      simp only [depthItems, Nat.max_le] at shallow
      have first := each item List.mem_cons_self depth fuel (itemsChars list ++ rest) legal.1 shallow.1 (by omega)
        (ends_itemsChars list rest)
      have later := ih (fun other member => each other (List.mem_cons_of_mem item member)) legal.2 shallow.2
        (by omega : (itemsChars list).length ≤ fuel)
      have comma : skip (itemsChars (item :: list) ++ rest) = ',' :: (item.chars ++ (itemsChars list ++ rest)) := by
        simp [itemsChars, skip, isSpace]
      have other : ',' ≠ ']' := by decide
      simp only [items, comma, if_neg other, if_true, first, later, Option.map_some]

theorem member_append {key : List Glyph} {raw : Raw} (reads : Reads raw) {depth fuel : Nat} {rest : List Char}
    (named : key.all Glyph.legal = true) (legal : raw.legal = true) (shallow : raw.depth ≤ depth)
    (enough : raw.chars.length < fuel) (ends : Ends rest) :
    member depth fuel ('"' :: (bodyChars key ++ ':' :: (raw.chars ++ rest))) = some ((key, raw), rest) := by
  cases fuel with
  | zero => exact absurd enough (Nat.not_lt_zero _)
  | succ fuel =>
    have read := reads depth fuel rest legal shallow (by omega) ends
    have quote := @skip_cons '"' (by decide) (bodyChars key ++ ':' :: (raw.chars ++ rest))
    have colon := @skip_cons ':' (by decide) (raw.chars ++ rest)
    simp only [member, quote, if_true, glyphs_bodyChars named, colon, read, Option.map_some]

theorem members_membersChars {list : List (List Glyph × Raw)} (each : ∀ member ∈ list, Reads member.2)
    {depth fuel : Nat} (rest : List Char) (legal : legalMembers list = true) (shallow : depthMembers list ≤ depth)
    (enough : (membersChars list).length ≤ fuel) :
    members depth fuel (membersChars list ++ rest) = some (list, rest) := by
  induction list generalizing fuel with
  | nil =>
    cases fuel with
    | zero => exact absurd enough (by decide)
    | succ fuel => simp [membersChars, members, skip, isSpace]
  | cons entry list ih =>
    obtain ⟨key, raw⟩ := entry
    cases fuel with
    | zero => exact absurd enough (Nat.not_succ_le_zero _)
    | succ fuel =>
      simp only [membersChars, List.length_cons, List.length_append, Nat.add_le_add_iff_right] at enough
      simp only [legalMembers, Bool.and_eq_true] at legal
      simp only [depthMembers, Nat.max_le] at shallow
      have reads : Reads raw := each (key, raw) List.mem_cons_self
      have first := @member_append key raw reads depth fuel (membersChars list ++ rest) legal.1.1 legal.1.2 shallow.1
        (by omega) (ends_membersChars list rest)
      have later := ih (fun other member => each other (List.mem_cons_of_mem _ member)) legal.2 shallow.2
        (by omega : (membersChars list).length ≤ fuel)
      have comma : skip (membersChars ((key, raw) :: list) ++ rest) =
          ',' :: '"' :: (bodyChars key ++ ':' :: (raw.chars ++ (membersChars list ++ rest))) := by
        simp [membersChars, skip, isSpace]
      have other : ',' ≠ '}' := by decide
      simp only [members, comma, if_neg other, if_true, first, later, Option.map_some]

theorem value_number {literal : Literal} {depth fuel : Nat} {rest : List Char} (legal : literal.legal = true)
    (ends : Ends rest) : value depth (fuel + 1) (literal.chars ++ rest) = some (.number literal, rest) := by
  have read := number_append legal ends
  obtain ⟨c, more, written, begins⟩ := literal_head legal
  have outside := not_leading begins
  simp only [leading, List.mem_cons, List.not_mem_nil, or_false, not_or] at outside
  obtain ⟨quote, n, t, f, bracket, brace, _, _, spaces⟩ := outside
  have visible : isSpace c = false := by simp [isSpace, spaces]
  rw [written, List.cons_append] at read ⊢
  simp only [value, skip_cons visible, if_neg quote, if_neg n, if_neg t, if_neg f, if_neg bracket, if_neg brace, read,
    Option.map_some]

theorem value_array {item : Raw} {list : List Raw} (first : Reads item) (each : ∀ other ∈ list, Reads other)
    {depth fuel : Nat} (rest : List Char) (legal : legalItems (item :: list) = true)
    (shallow : depthItems (item :: list) < depth) (enough : (item.chars ++ itemsChars list).length ≤ fuel) :
    value depth (fuel + 1) ('[' :: (item.chars ++ (itemsChars list ++ rest))) = some (.array (item :: list), rest) := by
  simp only [legalItems, Bool.and_eq_true] at legal
  simp only [depthItems] at shallow
  rw [List.length_append] at enough
  have nested : depth ≠ 0 := by omega
  have read := first (depth - 1) fuel (itemsChars list ++ rest) legal.1 (by omega) (by omega) (ends_itemsChars list rest)
  have more : items (depth - 1) fuel (itemsChars list ++ rest) = some (list, rest) :=
    items_itemsChars each rest legal.2 (by omega) (by omega)
  obtain ⟨c, after, written, visible, open_, _⟩ := chars_head legal.1
  have bracket := @skip_cons '[' (by decide) (item.chars ++ (itemsChars list ++ rest))
  have filled : (skip (item.chars ++ (itemsChars list ++ rest))).head? ≠ some ']' := by
    rw [written, List.cons_append, skip_cons visible]
    exact fun same => open_ (Option.some.inj same)
  have quote : '[' ≠ '"' := by decide
  have n : '[' ≠ 'n' := by decide
  have t : '[' ≠ 't' := by decide
  have f : '[' ≠ 'f' := by decide
  simp only [value, bracket, if_neg quote, if_neg n, if_neg t, if_neg f, if_true, if_neg nested, if_neg filled, read, more,
    Option.map_some]

theorem value_object {key : List Glyph} {raw : Raw} {list : List (List Glyph × Raw)} (first : Reads raw)
    (each : ∀ other ∈ list, Reads other.2) {depth fuel : Nat} (rest : List Char)
    (legal : legalMembers ((key, raw) :: list) = true) (shallow : depthMembers ((key, raw) :: list) < depth)
    (enough : (bodyChars key ++ ':' :: (raw.chars ++ membersChars list)).length < fuel) :
    value depth (fuel + 1) ('{' :: '"' :: (bodyChars key ++ ':' :: (raw.chars ++ (membersChars list ++ rest)))) =
      some (.object ((key, raw) :: list), rest) := by
  simp only [legalMembers, Bool.and_eq_true] at legal
  simp only [depthMembers] at shallow
  simp only [List.length_append, List.length_cons] at enough
  have nested : depth ≠ 0 := by omega
  have read := @member_append key raw first (depth - 1) fuel (membersChars list ++ rest) legal.1.1 legal.1.2 (by omega)
    (by omega) (ends_membersChars list rest)
  have more : members (depth - 1) fuel (membersChars list ++ rest) = some (list, rest) :=
    members_membersChars each rest legal.2 (by omega) (by omega)
  have brace := @skip_cons '{' (by decide) ('"' :: (bodyChars key ++ ':' :: (raw.chars ++ (membersChars list ++ rest))))
  have filled : (skip ('"' :: (bodyChars key ++ ':' :: (raw.chars ++ (membersChars list ++ rest))))).head? ≠ some '}' := by
    rw [skip_cons (by decide)]
    exact fun same => absurd (Option.some.inj same) (by decide)
  have quote : '{' ≠ '"' := by decide
  have n : '{' ≠ 'n' := by decide
  have t : '{' ≠ 't' := by decide
  have f : '{' ≠ 'f' := by decide
  have bracket : '{' ≠ '[' := by decide
  simp only [value, brace, if_neg quote, if_neg n, if_neg t, if_neg f, if_neg bracket, if_true, if_neg nested,
    if_neg filled, read, more, Option.map_some]

/-- No tree is printed as nothing. -/
theorem Reads.of_succ {raw : Raw} (reads : ∀ depth fuel rest, raw.legal = true → raw.depth ≤ depth →
    raw.chars.length ≤ fuel + 1 → Ends rest → value depth (fuel + 1) (raw.chars ++ rest) = some (raw, rest)) :
    Reads raw := by
  intro depth fuel rest legal shallow enough ends
  cases fuel with
  | zero =>
    obtain ⟨c, more, written, _⟩ := chars_head legal
    rw [written] at enough
    exact absurd enough (Nat.not_succ_le_zero _)
  | succ fuel => exact reads depth fuel rest legal shallow enough ends

/-- The induction is on the tree; arrays and objects are read item after item. -/
theorem reads (raw : Raw) : Reads raw := by
  induction raw using Raw.induct with
  | null => exact .of_succ fun depth fuel rest _ _ _ _ => by simp [Raw.chars, value, skip, isSpace, word]
  | bool flag =>
    exact .of_succ fun depth fuel rest _ _ _ _ => by cases flag <;> simp [Raw.chars, value, skip, isSpace, word]
  | number literal => exact .of_succ fun depth fuel rest legal _ _ ends => value_number legal ends
  | string body =>
    refine .of_succ fun depth fuel rest legal _ _ _ => ?_
    have read := @glyphs_bodyChars body legal rest
    simp [Raw.chars, value, skip, isSpace, read]
  | array list each =>
    refine .of_succ fun depth fuel rest legal shallow enough _ => ?_
    cases list with
    | nil =>
      have nested : depth ≠ 0 := Nat.ne_of_gt shallow
      simp [Raw.chars, value, skip, isSpace, nested]
    | cons item list =>
      simp only [Raw.chars, List.length_cons, Nat.add_le_add_iff_right] at enough
      have read := value_array (each item List.mem_cons_self) (fun other member => each other (List.mem_cons_of_mem _ member))
        rest legal shallow enough
      simpa [Raw.chars] using read
  | object list each =>
    refine .of_succ fun depth fuel rest legal shallow enough _ => ?_
    cases list with
    | nil =>
      have nested : depth ≠ 0 := Nat.ne_of_gt shallow
      simp [Raw.chars, value, skip, isSpace, nested]
    | cons member list =>
      obtain ⟨key, raw⟩ := member
      simp only [Raw.chars, List.length_cons, Nat.add_le_add_iff_right] at enough
      have first : Reads raw := each (key, raw) List.mem_cons_self
      have read := value_object first (fun other member => each other (List.mem_cons_of_mem _ member)) rest legal shallow
        enough
      simpa [Raw.chars] using read

/-- A legal tree that is not nested too deep is read back from its text. -/
theorem parse_text {raw : Raw} {depth : Nat} (legal : raw.legal = true) (shallow : raw.depth ≤ depth) :
    parse depth raw.text = some raw := by
  have ends : Ends [] := fun c head => by cases head
  have read := reads raw depth (2 * raw.chars.length + 1) [] legal shallow (by omega) ends
  rw [List.append_nil] at read
  simp only [parse, Raw.text, String.toList_ofList, read]
  rfl

/-! What is read is legal. -/

theorem glyphs_legal {text rest : List Char} {body : List Glyph} (read : glyphs text = some (body, rest)) :
    body.all Glyph.legal = true := by
  fun_induction glyphs text generalizing body with
  | case1 => cases read
  | case2 rest =>
    obtain ⟨rfl, rfl⟩ := Prod.mk.inj (Option.some.inj read)
    rfl
  | case3 => cases read
  | case4 a b c d more legal _ ih =>
    obtain ⟨⟨later, after⟩, found, same⟩ := Option.map_eq_some_iff.mp read
    obtain ⟨rfl, rfl⟩ := Prod.mk.inj same
    rw [List.all_cons, legal, ih found]
    rfl
  | case5 => cases read
  | case6 => cases read
  | case7 e more _ legal _ ih =>
    obtain ⟨⟨later, after⟩, found, same⟩ := Option.map_eq_some_iff.mp read
    obtain ⟨rfl, rfl⟩ := Prod.mk.inj same
    rw [List.all_cons, legal, ih found]
    rfl
  | case8 => cases read
  | case9 c more _ _ legal ih =>
    obtain ⟨⟨later, after⟩, found, same⟩ := Option.map_eq_some_iff.mp read
    obtain ⟨rfl, rfl⟩ := Prod.mk.inj same
    rw [List.all_cons, legal, ih found]
    rfl
  | case10 => cases read

theorem number_legal {text rest : List Char} {literal : Literal} (read : number text = some (literal, rest)) :
    literal.legal = true := by
  unfold number at read
  split at read
  · cases read
  · split at read
    · cases read
    · split at read
      · cases read
      · dsimp only at read
        split at read
        · rename_i legal
          obtain ⟨rfl, rfl⟩ := Prod.mk.inj (Option.some.inj read)
          exact legal
        · cases read

/-- A legal tree, nested at most so deep. -/
structure Sound (depth : Nat) (raw : Raw) : Prop where
  legal : raw.legal = true
  shallow : raw.depth ≤ depth

theorem sound_array {depth : Nat} {list : List Raw} (nested : depth ≠ 0) (each : ∀ item ∈ list, Sound (depth - 1) item) :
    Sound depth (.array list) := by
  have both : legalItems list = true ∧ depthItems list ≤ depth - 1 := by
    induction list with
    | nil => exact ⟨rfl, Nat.zero_le _⟩
    | cons item list ih =>
      have first := each item List.mem_cons_self
      have later := ih fun other member => each other (List.mem_cons_of_mem item member)
      exact ⟨by rw [legalItems, first.legal, later.1]; rfl, Nat.max_le.mpr ⟨first.shallow, later.2⟩⟩
  exact ⟨both.1, by simp only [Raw.depth]; omega⟩

theorem sound_object {depth : Nat} {list : List (List Glyph × Raw)} (nested : depth ≠ 0)
    (each : ∀ member ∈ list, member.1.all Glyph.legal = true ∧ Sound (depth - 1) member.2) :
    Sound depth (.object list) := by
  have both : legalMembers list = true ∧ depthMembers list ≤ depth - 1 := by
    induction list with
    | nil => exact ⟨rfl, Nat.zero_le _⟩
    | cons member list ih =>
      obtain ⟨key, raw⟩ := member
      obtain ⟨named, first⟩ := each (key, raw) List.mem_cons_self
      have later := ih fun other member => each other (List.mem_cons_of_mem _ member)
      exact ⟨by rw [legalMembers, named, first.legal, later.1]; rfl, Nat.max_le.mpr ⟨first.shallow, later.2⟩⟩
  exact ⟨both.1, by simp only [Raw.depth]; omega⟩

/-- What the four functions return with so much fuel. -/
structure SoundUpTo (fuel : Nat) : Prop where
  value : ∀ {depth text raw rest}, value depth fuel text = some (raw, rest) → Sound depth raw
  items : ∀ {depth text list rest}, items depth fuel text = some (list, rest) → ∀ item ∈ list, Sound depth item
  member : ∀ {depth text entry rest}, member depth fuel text = some (entry, rest) →
    entry.1.all Glyph.legal = true ∧ Sound depth entry.2
  members : ∀ {depth text list rest}, members depth fuel text = some (list, rest) →
    ∀ entry ∈ list, entry.1.all Glyph.legal = true ∧ Sound depth entry.2

theorem word_sound {letters text rest : List Char} {raw found : Raw} {depth : Nat} (sound : Sound depth raw)
    (read : word letters raw text = some (found, rest)) : Sound depth found := by
  unfold word at read
  split at read
  · obtain ⟨rfl, rfl⟩ := Prod.mk.inj (Option.some.inj read)
    exact sound
  · cases read

theorem value_sound {fuel : Nat} (before : SoundUpTo fuel) {depth : Nat} {text rest : List Char} {raw : Raw}
    (read : value depth (fuel + 1) text = some (raw, rest)) : Sound depth raw := by
  unfold value at read
  split at read
  · cases read
  · rename_i c more _
    split at read
    · obtain ⟨⟨body, after⟩, found, same⟩ := Option.map_eq_some_iff.mp read
      obtain ⟨rfl, rfl⟩ := Prod.mk.inj same
      exact ⟨glyphs_legal found, Nat.zero_le _⟩
    · split at read
      · exact word_sound ⟨rfl, Nat.zero_le _⟩ read
      · split at read
        · exact word_sound ⟨rfl, Nat.zero_le _⟩ read
        · split at read
          · exact word_sound ⟨rfl, Nat.zero_le _⟩ read
          · split at read
            · split at read
              · cases read
              · rename_i nested
                split at read
                · obtain ⟨rfl, rfl⟩ := Prod.mk.inj (Option.some.inj read)
                  exact sound_array nested fun item member => by cases member
                · split at read
                  · cases read
                  · rename_i item after first
                    obtain ⟨⟨list, last⟩, found, same⟩ := Option.map_eq_some_iff.mp read
                    obtain ⟨rfl, rfl⟩ := Prod.mk.inj same
                    refine sound_array nested fun other member => ?_
                    rcases List.mem_cons.mp member with rfl | later
                    · exact before.value first
                    · exact before.items found other later
            · split at read
              · split at read
                · cases read
                · rename_i nested
                  split at read
                  · obtain ⟨rfl, rfl⟩ := Prod.mk.inj (Option.some.inj read)
                    exact sound_object nested fun item member => by cases member
                  · split at read
                    · cases read
                    · rename_i entry after first
                      obtain ⟨⟨list, last⟩, found, same⟩ := Option.map_eq_some_iff.mp read
                      obtain ⟨rfl, rfl⟩ := Prod.mk.inj same
                      refine sound_object nested fun other member => ?_
                      rcases List.mem_cons.mp member with rfl | later
                      · exact before.member first
                      · exact before.members found other later
              · obtain ⟨⟨literal, after⟩, found, same⟩ := Option.map_eq_some_iff.mp read
                obtain ⟨rfl, rfl⟩ := Prod.mk.inj same
                exact ⟨number_legal found, Nat.zero_le _⟩

theorem items_sound {fuel : Nat} (before : SoundUpTo fuel) {depth : Nat} {text rest : List Char} {list : List Raw}
    (read : items depth (fuel + 1) text = some (list, rest)) : ∀ item ∈ list, Sound depth item := by
  unfold items at read
  split at read
  · cases read
  · split at read
    · obtain ⟨rfl, rfl⟩ := Prod.mk.inj (Option.some.inj read)
      intro item member
      cases member
    · split at read
      · split at read
        · cases read
        · rename_i item after first
          obtain ⟨⟨more, last⟩, found, same⟩ := Option.map_eq_some_iff.mp read
          obtain ⟨rfl, rfl⟩ := Prod.mk.inj same
          intro other member
          rcases List.mem_cons.mp member with rfl | later
          · exact before.value first
          · exact before.items found other later
      · cases read

theorem member_sound {fuel : Nat} (before : SoundUpTo fuel) {depth : Nat} {text rest : List Char}
    {entry : List Glyph × Raw} (read : member depth (fuel + 1) text = some (entry, rest)) :
    entry.1.all Glyph.legal = true ∧ Sound depth entry.2 := by
  unfold member at read
  split at read
  · cases read
  · split at read
    · split at read
      · cases read
      · rename_i key after named
        split at read
        · cases read
        · split at read
          · obtain ⟨⟨found, last⟩, first, same⟩ := Option.map_eq_some_iff.mp read
            obtain ⟨rfl, rfl⟩ := Prod.mk.inj same
            exact ⟨glyphs_legal named, before.value first⟩
          · cases read
    · cases read

theorem members_sound {fuel : Nat} (before : SoundUpTo fuel) {depth : Nat} {text rest : List Char}
    {list : List (List Glyph × Raw)} (read : members depth (fuel + 1) text = some (list, rest)) :
    ∀ entry ∈ list, entry.1.all Glyph.legal = true ∧ Sound depth entry.2 := by
  unfold members at read
  split at read
  · cases read
  · split at read
    · obtain ⟨rfl, rfl⟩ := Prod.mk.inj (Option.some.inj read)
      intro item member
      cases member
    · split at read
      · split at read
        · cases read
        · rename_i entry after first
          obtain ⟨⟨more, last⟩, found, same⟩ := Option.map_eq_some_iff.mp read
          obtain ⟨rfl, rfl⟩ := Prod.mk.inj same
          intro other member
          rcases List.mem_cons.mp member with rfl | later
          · exact before.member first
          · exact before.members found other later
      · cases read

theorem soundUpTo (fuel : Nat) : SoundUpTo fuel := by
  induction fuel with
  | zero =>
    exact ⟨(fun read => by simp [value] at read), (fun read => by simp [items] at read),
      (fun read => by simp [member] at read), (fun read => by simp [members] at read)⟩
  | succ fuel ih => exact ⟨value_sound ih, items_sound ih, member_sound ih, members_sound ih⟩

theorem parse_sound {depth : Nat} {text : String} {raw : Raw} (read : parse depth text = some raw) : Sound depth raw := by
  unfold parse at read
  split at read
  · cases read
  · rename_i found rest first
    split at read
    · obtain rfl := Option.some.inj read
      exact (soundUpTo _).value first
    · cases read

/-! The bound on the nesting only matters to what is nested deeper. -/

/-- What was read with so much fuel is not nested deeper than that, and it is read in the same way under
every bound that it keeps to. -/
structure DeeperUpTo (fuel : Nat) : Prop where
  value : ∀ {depth text raw rest}, value depth fuel text = some (raw, rest) →
    raw.depth ≤ fuel ∧ ∀ {bound}, raw.depth ≤ bound → JsonText.value bound fuel text = some (raw, rest)
  items : ∀ {depth text list rest}, items depth fuel text = some (list, rest) →
    depthItems list ≤ fuel ∧ ∀ {bound}, depthItems list ≤ bound → JsonText.items bound fuel text = some (list, rest)
  member : ∀ {depth text entry rest}, member depth fuel text = some (entry, rest) →
    entry.2.depth ≤ fuel ∧ ∀ {bound}, entry.2.depth ≤ bound → JsonText.member bound fuel text = some (entry, rest)
  members : ∀ {depth text list rest}, members depth fuel text = some (list, rest) →
    depthMembers list ≤ fuel ∧ ∀ {bound}, depthMembers list ≤ bound → JsonText.members bound fuel text = some (list, rest)

theorem word_flat {letters text rest : List Char} {raw found : Raw} (flat : raw.depth = 0)
    (read : word letters raw text = some (found, rest)) : found.depth = 0 := by
  unfold word at read
  split at read
  · obtain ⟨rfl, rfl⟩ := Prod.mk.inj (Option.some.inj read)
    exact flat
  · cases read

theorem value_deeper {fuel : Nat} (before : DeeperUpTo fuel) {depth : Nat} {text rest : List Char} {raw : Raw}
    (read : value depth (fuel + 1) text = some (raw, rest)) :
    raw.depth ≤ fuel + 1 ∧ ∀ {bound}, raw.depth ≤ bound → value bound (fuel + 1) text = some (raw, rest) := by
  unfold value at read ⊢
  cases start : skip text with
  | nil =>
    rw [start] at read
    cases read
  | cons c more =>
    simp only [start] at read ⊢
    by_cases quote : c = '"'
    · simp only [if_pos quote] at read ⊢
      obtain ⟨found, _, same⟩ := Option.map_eq_some_iff.mp read
      obtain ⟨rfl, -⟩ := Prod.mk.inj same
      exact ⟨Nat.zero_le _, fun _ => read⟩
    · by_cases n : c = 'n'
      · simp only [if_neg quote, if_pos n] at read ⊢
        exact ⟨word_flat rfl read ▸ Nat.zero_le _, fun _ => read⟩
      · by_cases t : c = 't'
        · simp only [if_neg quote, if_neg n, if_pos t] at read ⊢
          exact ⟨word_flat rfl read ▸ Nat.zero_le _, fun _ => read⟩
        · by_cases f : c = 'f'
          · simp only [if_neg quote, if_neg n, if_neg t, if_pos f] at read ⊢
            exact ⟨word_flat rfl read ▸ Nat.zero_le _, fun _ => read⟩
          · simp only [if_neg quote, if_neg n, if_neg t, if_neg f] at read ⊢
            by_cases bracket : c = '['
            · simp only [if_pos bracket] at read ⊢
              split at read
              · cases read
              · split at read
                · rename_i ends
                  obtain ⟨rfl, rfl⟩ := Prod.mk.inj (Option.some.inj read)
                  refine ⟨Nat.le_add_left 1 fuel, ?_⟩
                  intro bound shallow
                  have nested : bound ≠ 0 := Nat.ne_of_gt shallow
                  rw [if_neg nested, if_pos ends]
                · rename_i open_
                  split at read
                  · cases read
                  · rename_i found after first
                    obtain ⟨⟨list, last⟩, later, same⟩ := Option.map_eq_some_iff.mp read
                    obtain ⟨rfl, rfl⟩ := Prod.mk.inj same
                    obtain ⟨low, firstAgain⟩ := before.value first
                    obtain ⟨lowLater, laterAgain⟩ := before.items later
                    simp only [Raw.depth, depthItems]
                    refine ⟨Nat.succ_le_succ (Nat.max_le.mpr ⟨low, lowLater⟩), fun shallow => ?_⟩
                    have inner := Nat.le_sub_one_of_lt shallow
                    rw [if_neg (Nat.ne_of_gt (Nat.lt_of_le_of_lt (Nat.zero_le _) shallow)), if_neg open_,
                      firstAgain (Nat.le_trans (Nat.le_max_left _ _) inner)]
                    dsimp only
                    rw [laterAgain (Nat.le_trans (Nat.le_max_right _ _) inner)]
                    rfl
            · simp only [if_neg bracket] at read ⊢
              by_cases brace : c = '{'
              · simp only [if_pos brace] at read ⊢
                split at read
                · cases read
                · split at read
                  · rename_i ends
                    obtain ⟨rfl, rfl⟩ := Prod.mk.inj (Option.some.inj read)
                    refine ⟨Nat.le_add_left 1 fuel, ?_⟩
                    intro bound shallow
                    have nested : bound ≠ 0 := Nat.ne_of_gt shallow
                    rw [if_neg nested, if_pos ends]
                  · rename_i open_
                    split at read
                    · cases read
                    · rename_i found after first
                      obtain ⟨⟨list, last⟩, later, same⟩ := Option.map_eq_some_iff.mp read
                      obtain ⟨rfl, rfl⟩ := Prod.mk.inj same
                      obtain ⟨low, firstAgain⟩ := before.member first
                      obtain ⟨lowLater, laterAgain⟩ := before.members later
                      simp only [Raw.depth, depthMembers]
                      refine ⟨Nat.succ_le_succ (Nat.max_le.mpr ⟨low, lowLater⟩), fun shallow => ?_⟩
                      have inner := Nat.le_sub_one_of_lt shallow
                      rw [if_neg (Nat.ne_of_gt (Nat.lt_of_le_of_lt (Nat.zero_le _) shallow)), if_neg open_,
                        firstAgain (Nat.le_trans (Nat.le_max_left _ _) inner)]
                      dsimp only
                      rw [laterAgain (Nat.le_trans (Nat.le_max_right _ _) inner)]
                      rfl
              · simp only [if_neg brace] at read ⊢
                obtain ⟨found, _, same⟩ := Option.map_eq_some_iff.mp read
                obtain ⟨rfl, -⟩ := Prod.mk.inj same
                exact ⟨Nat.zero_le _, fun _ => read⟩

theorem items_deeper {fuel : Nat} (before : DeeperUpTo fuel) {depth : Nat} {text rest : List Char} {list : List Raw}
    (read : items depth (fuel + 1) text = some (list, rest)) :
    depthItems list ≤ fuel + 1 ∧ ∀ {bound}, depthItems list ≤ bound → items bound (fuel + 1) text = some (list, rest) := by
  unfold items at read ⊢
  split at read
  · cases read
  · rename_i c more start
    split at read
    · rename_i ends
      obtain ⟨rfl, rfl⟩ := Prod.mk.inj (Option.some.inj read)
      refine ⟨Nat.zero_le _, fun _ => ?_⟩
      rw [if_pos ends]
    · rename_i open_
      split at read
      · rename_i comma
        split at read
        · cases read
        · rename_i found after first
          obtain ⟨⟨others, last⟩, later, same⟩ := Option.map_eq_some_iff.mp read
          obtain ⟨rfl, rfl⟩ := Prod.mk.inj same
          obtain ⟨low, firstAgain⟩ := before.value first
          obtain ⟨lowLater, laterAgain⟩ := before.items later
          simp only [depthItems]
          refine ⟨Nat.le_succ_of_le (Nat.max_le.mpr ⟨low, lowLater⟩), fun shallow => ?_⟩
          rw [if_neg open_, if_pos comma, firstAgain (Nat.le_trans (Nat.le_max_left _ _) shallow)]
          dsimp only
          rw [laterAgain (Nat.le_trans (Nat.le_max_right _ _) shallow)]
          rfl
      · cases read

theorem members_deeper {fuel : Nat} (before : DeeperUpTo fuel) {depth : Nat} {text rest : List Char} {list : List (List Glyph × Raw)}
    (read : members depth (fuel + 1) text = some (list, rest)) :
    depthMembers list ≤ fuel + 1 ∧ ∀ {bound}, depthMembers list ≤ bound → members bound (fuel + 1) text = some (list, rest) := by
  unfold members at read ⊢
  split at read
  · cases read
  · rename_i c more start
    split at read
    · rename_i ends
      obtain ⟨rfl, rfl⟩ := Prod.mk.inj (Option.some.inj read)
      refine ⟨Nat.zero_le _, fun _ => ?_⟩
      rw [if_pos ends]
    · rename_i open_
      split at read
      · rename_i comma
        split at read
        · cases read
        · rename_i found after first
          obtain ⟨⟨others, last⟩, later, same⟩ := Option.map_eq_some_iff.mp read
          obtain ⟨rfl, rfl⟩ := Prod.mk.inj same
          obtain ⟨low, firstAgain⟩ := before.member first
          obtain ⟨lowLater, laterAgain⟩ := before.members later
          simp only [depthMembers]
          refine ⟨Nat.le_succ_of_le (Nat.max_le.mpr ⟨low, lowLater⟩), fun shallow => ?_⟩
          rw [if_neg open_, if_pos comma, firstAgain (Nat.le_trans (Nat.le_max_left _ _) shallow)]
          dsimp only
          rw [laterAgain (Nat.le_trans (Nat.le_max_right _ _) shallow)]
          rfl
      · cases read

theorem member_deeper {fuel : Nat} (before : DeeperUpTo fuel) {depth : Nat} {text rest : List Char}
    {entry : List Glyph × Raw} (read : member depth (fuel + 1) text = some (entry, rest)) :
    entry.2.depth ≤ fuel + 1 ∧ ∀ {bound}, entry.2.depth ≤ bound → member bound (fuel + 1) text = some (entry, rest) := by
  unfold member at read ⊢
  split at read
  · cases read
  · split at read
    · rename_i quote
      split at read
      · cases read
      · split at read
        · cases read
        · split at read
          · rename_i colon
            obtain ⟨⟨found, last⟩, first, same⟩ := Option.map_eq_some_iff.mp read
            obtain ⟨rfl, rfl⟩ := Prod.mk.inj same
            obtain ⟨low, firstAgain⟩ := before.value first
            refine ⟨Nat.le_succ_of_le low, fun shallow => ?_⟩
            rw [if_pos quote]
            dsimp only
            rw [if_pos colon, firstAgain shallow]
            rfl
          · cases read
    · cases read

theorem deeperUpTo (fuel : Nat) : DeeperUpTo fuel := by
  induction fuel with
  | zero =>
    exact ⟨(fun read => by simp [value] at read), (fun read => by simp [items] at read),
      (fun read => by simp [member] at read), (fun read => by simp [members] at read)⟩
  | succ fuel ih => exact ⟨value_deeper ih, items_deeper ih, member_deeper ih, members_deeper ih⟩

theorem parse_deeper {depth bound : Nat} {text : String} {raw : Raw} (read : parse depth text = some raw)
    (shallow : raw.depth ≤ bound) : parse bound text = some raw := by
  unfold parse at read ⊢
  split at read
  · cases read
  · rename_i found rest first
    split at read
    · rename_i ends
      obtain rfl := Option.some.inj read
      rw [((deeperUpTo _).value first).2 shallow]
      dsimp only
      rw [if_pos ends]
    · cases read

/-- The tree of a text, however deep it is nested. -/
def tree (text : String) : Option Raw := parse (2 * text.toList.length + 1) text

theorem tree_of_parse {depth : Nat} {text : String} {raw : Raw} (read : parse depth text = some raw) :
    tree text = some raw := by
  refine parse_deeper read ?_
  unfold parse at read
  split at read
  · cases read
  · rename_i found rest first
    split at read
    · obtain rfl := Option.some.inj read
      exact ((deeperUpTo _).value first).1
    · cases read

end JsonText
