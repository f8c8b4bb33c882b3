import AibomWebhook.Library.Keyed
import AibomWebhook.Library.PyNumber
import AibomWebhook.Library.PyUrl

/-! The flags of a command, however they are spelled (postprocess/postprocess.py, `_parse_flags`). -/

namespace AibomWebhook.FlagSpelling
open PyUrl

abbrev Token := List Char

def boolWords : List Token := ["true", "false", "1", "0", "yes", "no"].map String.toList

/-- `\d+`. -/
def isDigits (text : List Char) : Bool := text ≠ [] && text.all fun c => (PyNumber.digitOf c).isSome

/-- `_NUMBER_RE`, whose `$` also holds in front of a last line break. -/
def isNumber : Token → Bool
  | '-' :: rest =>
    let body := if rest.getLast? = some '\n' then rest.dropLast else rest
    isDigits (before '.' body) && (!body.contains '.' || isDigits (after '.' body))
  | _ => false

/-- `_is_flag_token`. -/
def isFlagToken (tok : Token) : Bool := tok.head? = some '-' && tok ≠ ['-'] && !isNumber tok

/-- `_has_unexpanded_var`. -/
def hasUnexpandedVar : Token → Bool
  | '$' :: c :: rest => c == '{' || c == '(' || c.isAlpha || c == '_' || hasUnexpandedVar (c :: rest)
  | _ :: rest => hasUnexpandedVar rest
  | [] => false

/-- `_split_flag`. -/
def splitFlag (sep : Char) (tok : Token) : Token × Option Token :=
  let key := before '=' tok
  (if key.take 2 = ['-', '-'] then '-' :: '-' :: (key.drop 2).map (fun c => if c = '-' ∨ c = '_' then sep else c) else key,
    if '=' ∈ tok then some (after '=' tok) else none)

/-- `_to_bool`. -/
def toBool (val : Token) : Bool :=
  ((val.dropWhile PyText.isSpace).rdropWhile PyText.isSpace).map Char.toLower ∈ ["1", "true", "yes"].map String.toList

/-- Beyond ASCII no character has a letter of these words as its lower case. -/
def isBoolWord (val : Token) : Bool := val.map Char.toLower ∈ boolWords

/-- What a value is converted by: `none` is an exception that `_parse_flags` catches, or `None`. -/
inductive Conv (V : Type) where
  | bool
  | other (convert : Token → Option V)

/-- An entry of `arg_map`. -/
structure Flag (V : Type) where
  key : Token
  name : List Char
  conv : Conv V

abbrev ArgMap (V : Type) := Keyed (Flag.key (V := V))

inductive Value (V : Type) where
  | bool (value : Bool)
  | other (value : V)
  deriving DecidableEq

structure Entry (V : Type) where
  name : List Char
  value : Value V
  deriving DecidableEq

abbrev Result (V : Type) := Keyed (Entry.name (V := V))

variable {V : Type}

/-- `key in bool_flags`. -/
def isBoolFlag (argMap : ArgMap V) (key : Token) : Bool :=
  match (argMap.find? key).map Flag.conv with
  | some .bool => true
  | _ => false

/-- The flag that a key means, and whether it is negated. -/
def resolve (argMap : ArgMap V) (sep : Char) (key : Token) : Option (Flag V × Bool) :=
  if key.take 5 = "--no".toList ++ [sep] ∧ isBoolFlag argMap ('-' :: '-' :: key.drop 5) then
    (argMap.find? ('-' :: '-' :: key.drop 5)).map fun flag => (flag, true)
  else (argMap.find? key).map fun flag => (flag, false)

/-- What the loop carries along. -/
structure Reading (V : Type) where
  result : Result V
  positional : Option Token
  expectPositional : Bool

namespace Reading
variable (reading : Reading V)

def positionalToken (tok : Token) : Reading V :=
  { reading with
    positional := if reading.expectPositional then some tok else reading.positional
    expectPositional := false }

def unknownFlag : Reading V := { reading with expectPositional := false }

def set (name : List Char) (value : Value V) : Reading V := { reading with result := reading.result.put { name, value } }

/-- A bool flag. -/
def setBool (name : List Char) (negated : Bool) (val : Option Token) : Reading V :=
  reading.set name (.bool (!negated && (val.map toBool).getD true))

/-- A flag that takes a value. -/
def convert (name : List Char) (convert : Token → Option V) (val : Option Token) : Reading V :=
  match val with
  | none => reading
  | some val =>
    if val = [] ∨ hasUnexpandedVar val then reading
    else match convert val with
    | some converted => reading.set name (.other converted)
    | none => reading

end Reading

section
variable (argMap : ArgMap V) (sep : Char) (boolValues : Bool)

/-- The loop of `_parse_flags`. -/
def readFlags (reading : Reading V) : List Token → Reading V
  | [] => reading
  | tok :: rest =>
    if ¬ isFlagToken tok then readFlags (reading.positionalToken tok) rest
    else
      let (key, val) := splitFlag sep tok
      match resolve argMap sep key with
      | none => readFlags reading.unknownFlag rest
      | some ({ key := _, name, conv := .bool }, negated) =>
        match val, rest with
        | none, next :: others =>
          if boolValues ∧ isBoolWord next then readFlags (reading.setBool name negated (some next)) others
          else readFlags (reading.setBool name negated none) (next :: others)
        | val, rest => readFlags (reading.setBool name negated val) rest
      | some ({ key := _, name, conv := .other convert }, _) =>
        match val, rest with
        | none, next :: others =>
          if ¬ isFlagToken next then readFlags (reading.convert name convert (some next)) others
          else readFlags (reading.convert name convert none) (next :: others)
        | val, rest => readFlags (reading.convert name convert val) rest

/-- `_parse_flags`. -/
def parseFlags (args : List Token) : Result V × Option Token :=
  let reading := readFlags argMap sep boolValues { result := ∅, positional := none, expectPositional := true } args
  (reading.result, reading.positional)

/-! The spellings. -/

inductive Kind where
  | bool
  | taking
  | unknown
  deriving DecidableEq

def Conv.kind : Conv V → Kind
  | .bool => .bool
  | .other _ => .taking

/-- The kind of a key: a negation of a bool flag is that flag. -/
def kind (key : Token) : Kind :=
  match resolve argMap sep key with
  | some (flag, _) => flag.conv.kind
  | none => .unknown

/-- The same, but that a key in the map is first of all that key. -/
def ownKind (key : Token) : Kind :=
  match argMap.find? key with
  | some flag => flag.conv.kind
  | none => kind argMap sep key

/-- Two names of long flags that differ in `-` and `_`. -/
def SameName (name name' : List Char) : Prop :=
  name.map (fun c => if c = '-' then '_' else c) = name'.map fun c => if c = '-' then '_' else c

/-- `--key=val` may be written as `--key` and `val`. -/
def Splits (kindOf : Token → Kind) (key val : Token) : Prop :=
  match kindOf (splitFlag sep key).1 with
  | .bool => boolValues = true ∧ isBoolWord val = true
  | _ => isFlagToken val = false

/-- The same flags in other spellings: those on the right have some of the long flags on the left in two tokens, or
with other separators in their names. -/
inductive Respelled (kindOf : Token → Kind) : List Token → List Token → Prop where
  | nil : Respelled kindOf [] []
  | keep {rest rest' : List Token} (tok : Token) (later : Respelled kindOf rest rest') :
      Respelled kindOf (tok :: rest) (tok :: rest')
  | swap {rest rest' : List Token} {name name' tail : List Char} (named : '=' ∉ name) (named' : '=' ∉ name')
      (begins : ∀ c ∈ tail.head?, c = '=') (same : SameName name name') (later : Respelled kindOf rest rest') :
      Respelled kindOf (('-' :: '-' :: (name ++ tail)) :: rest) (('-' :: '-' :: (name' ++ tail)) :: rest')
  | split {rest rest' : List Token} {name val : List Char} (named : '=' ∉ name)
      (splits : Splits sep boolValues kindOf ('-' :: '-' :: name) val) (later : Respelled kindOf rest rest') :
      Respelled kindOf (('-' :: '-' :: (name ++ '=' :: val)) :: rest) (('-' :: '-' :: name) :: val :: rest')

/-! The occurrences. -/

/-- Each flag token, with the token after it. -/
def occurrences : List Token → List (Token × Option Token)
  | [] => []
  | tok :: rest => if isFlagToken tok then (tok, rest.head?) :: occurrences rest else occurrences rest

/-- The value of an occurrence, if it is present. -/
def valueOf (occurrence : Token × Option Token) : Option Token :=
  match (splitFlag sep occurrence.1).2 with
  | some val => some val
  | none => occurrence.2.filter fun next => !isFlagToken next

/-- What an occurrence of a flag of this name converts its value to. -/
def converted (name : List Char) (occurrence : Token × Option Token) : Option V :=
  match resolve argMap sep (splitFlag sep occurrence.1).1 with
  | some ({ key := _, name := written, conv := .other convert }, _) =>
    if written = name then
      (valueOf sep occurrence).bind fun val => if val = [] ∨ hasUnexpandedVar val then none else convert val
    else none
  | _ => none

/-! The tokens that the loop takes together. -/

/-- What a token does, with its value. -/
def effect (reading : Reading V) (tok : Token) (val : Option Token) : Reading V :=
  if ¬ isFlagToken tok then reading.positionalToken tok
  else match resolve argMap sep (splitFlag sep tok).1 with
  | none => reading.unknownFlag
  | some ({ key := _, name, conv := .bool }, negated) => reading.setBool name negated val
  | some ({ key := _, name, conv := .other convert }, _) => reading.convert name convert val

/-- Whether a token takes the next one as its value. -/
def takesValue (tok next : Token) : Bool :=
  isFlagToken tok && (splitFlag sep tok).2 = none &&
    match kind argMap sep (splitFlag sep tok).1 with
    | .bool => boolValues && isBoolWord next
    | .taking => !isFlagToken next
    | .unknown => false

variable {argMap sep boolValues} {reading : Reading V} {tok next : Token} {rest : List Token}

theorem readFlags_takes (takes : takesValue argMap sep boolValues tok next = true) :
    readFlags argMap sep boolValues reading (tok :: next :: rest) =
      readFlags argMap sep boolValues (effect argMap sep reading tok (some next)) rest := by
  simp only [takesValue, Bool.and_eq_true, decide_eq_true_eq] at takes
  obtain ⟨⟨flag, bare⟩, takes⟩ := takes
  rw [readFlags]
  simp only [flag, not_true_eq_false, if_false, bare, effect]
  rcases found : resolve argMap sep (splitFlag sep tok).1 with _ | ⟨⟨key, name, _ | convert⟩, negated⟩
  · simp [kind, found] at takes
  · simp only [kind, found, Conv.kind, Bool.and_eq_true] at takes
    simp [takes]
  · simp only [kind, found, Conv.kind, Bool.not_eq_true'] at takes
    simp [takes]

theorem readFlags_leaves (leaves : ∀ next ∈ rest.head?, takesValue argMap sep boolValues tok next = false) :
    readFlags argMap sep boolValues reading (tok :: rest) =
      readFlags argMap sep boolValues (effect argMap sep reading tok (splitFlag sep tok).2) rest := by
  rw [readFlags]
  by_cases flag : isFlagToken tok = true
  · simp only [flag, not_true_eq_false, if_false, effect]
    rcases found : resolve argMap sep (splitFlag sep tok).1 with _ | ⟨⟨key, name, _ | convert⟩, negated⟩
    · rfl
    · rcases given : (splitFlag sep tok).2 with _ | val
      · cases rest with
        | nil => rfl
        | cons next others =>
          have left := leaves next rfl
          simp only [takesValue, flag, given, kind, found, Conv.kind] at left
          have left' : ¬(boolValues = true ∧ isBoolWord next = true) := by simpa using left
          simp [left']
      · rfl
    · rcases given : (splitFlag sep tok).2 with _ | val
      · cases rest with
        | nil => rfl
        | cons next others =>
          have left := leaves next rfl
          simp only [takesValue, flag, given, kind, found, Conv.kind] at left
          have left' : isFlagToken next = true := by simpa using left
          simp [left']
      · rfl
  · simp [flag, effect]

theorem isFlagToken_long (name : List Char) : isFlagToken ('-' :: '-' :: name) = true := by
  have number : isNumber ('-' :: '-' :: name) = false := by
    have dash : isDigits ('-' :: name) = false ∧ ∀ more, isDigits (before '.' ('-' :: more)) = false := by
      have other : (PyNumber.digitOf '-').isSome = false := by decide
      refine ⟨by simp [isDigits, other], fun more => ?_⟩
      have begins : before '.' ('-' :: more) = '-' :: before '.' more := by simp [before]
      rw [begins]
      simp [isDigits, other]
    unfold isNumber
    simp only
    split
    · rename_i line
      cases name with
      | nil => exact absurd line (by decide)
      | cons c more =>
        rw [List.dropLast_cons_cons, dash.2]
        rfl
    · rw [dash.2]
      rfl
  simp [isFlagToken, number]

/-- What is taken as a value is no flag. -/
theorem not_isFlagToken_of_isBoolWord (word : isBoolWord next = true) : isFlagToken next = false := by
  have head : next.head? ≠ some '-' := by
    intro dash
    cases next with
    | nil => exact absurd dash (by simp)
    | cons c rest =>
      obtain rfl : c = '-' := by simpa using dash
      have words : ∀ w ∈ boolWords, w.head? ≠ some '-' := by decide
      exact words _ (of_decide_eq_true word) rfl
  simp [isFlagToken, head]

theorem not_isFlagToken_of_takesValue (takes : takesValue argMap sep boolValues tok next = true) :
    isFlagToken next = false := by
  rw [takesValue, Bool.and_eq_true] at takes
  have kinds := takes.2
  split at kinds
  · rw [Bool.and_eq_true] at kinds
    exact not_isFlagToken_of_isBoolWord kinds.2
  · simpa using kinds
  · exact absurd kinds (by simp)

theorem not_takesValue_of_isFlagToken (flag : isFlagToken next = true) :
    takesValue argMap sep boolValues tok next = false := by
  rw [Bool.eq_false_iff]
  intro takes
  rw [not_isFlagToken_of_takesValue takes] at flag
  exact absurd flag (by decide)

/-- The loop takes one token or two. -/
theorem args_induction (argMap : ArgMap V) (sep : Char) (boolValues : Bool) {motive : List Token → Prop}
    (nil : motive [])
    (takes : ∀ tok next rest, takesValue argMap sep boolValues tok next = true → motive rest → motive (tok :: next :: rest))
    (leaves : ∀ tok rest, (∀ next ∈ rest.head?, takesValue argMap sep boolValues tok next = false) → motive rest →
      motive (tok :: rest)) (args : List Token) : motive args := by
  induction size : args.length using Nat.strong_induction_on generalizing args with
  | h n ih =>
    subst size
    match args with
    | [] => exact nil
    | [tok] => exact leaves tok [] (by simp) nil
    | tok :: next :: rest =>
      cases taken : takesValue argMap sep boolValues tok next with
      | true => exact takes tok next rest taken (ih _ (by simp only [List.length_cons]; omega) rest rfl)
      | false => exact leaves tok (next :: rest) (by simp [taken]) (ih _ (by simp) (next :: rest) rfl)

/-! Respelled flags are read the same. -/

theorem before_name {name tail : List Char} (named : '=' ∉ name) (begins : ∀ c ∈ tail.head?, c = '=') :
    before '=' ('-' :: '-' :: (name ++ tail)) = '-' :: '-' :: name ∧
      ('=' ∈ '-' :: '-' :: (name ++ tail) ↔ '=' ∈ tail) ∧
      after '=' ('-' :: '-' :: (name ++ tail)) = tail.tail := by
  have free : '=' ∉ '-' :: '-' :: name := by simp [named]
  have long : '-' :: '-' :: (name ++ tail) = ('-' :: '-' :: name) ++ tail := rfl
  rw [long]
  cases tail with
  | nil =>
    refine ⟨?_, by simp [named], ?_⟩
    · rw [before_append free]
      simp [before]
    · rw [List.append_nil, after, List.dropWhile_eq_nil_iff.mpr]
      intro c inside
      simpa using ne_of_mem_of_not_mem inside free
  | cons c more =>
    obtain rfl := begins c rfl
    exact ⟨before_mark free, by simp, after_mark free⟩

/-- The separators of a name do not matter. -/
theorem splitFlag_swap (sep : Char) {name name' tail : List Char} (named : '=' ∉ name) (named' : '=' ∉ name')
    (begins : ∀ c ∈ tail.head?, c = '=') (same : SameName name name') :
    splitFlag sep ('-' :: '-' :: (name ++ tail)) = splitFlag sep ('-' :: '-' :: (name' ++ tail)) := by
  obtain ⟨key, marked, val⟩ := before_name named begins
  obtain ⟨key', marked', val'⟩ := before_name named' begins
  have written : name.map (fun c => if c = '-' ∨ c = '_' then sep else c) =
      name'.map fun c => if c = '-' ∨ c = '_' then sep else c := by
    have through : (fun c => if c = '-' ∨ c = '_' then sep else c) =
        (fun c => if c = '_' then sep else c) ∘ fun c => if c = '-' then '_' else c := by
      funext c
      by_cases dash : c = '-' <;> simp [dash]
    rw [through, ← List.map_map, ← List.map_map, same]
  simp only [splitFlag, key, key', val, val', marked, marked']
  simp [written]

theorem splitFlag_split (sep : Char) {name val : List Char} (named : '=' ∉ name) :
    splitFlag sep ('-' :: '-' :: (name ++ '=' :: val)) = ((splitFlag sep ('-' :: '-' :: name)).1, some val) ∧
      (splitFlag sep ('-' :: '-' :: name)).2 = none := by
  obtain ⟨key, marked, tail⟩ := before_name named (show ∀ c ∈ ('=' :: val).head?, c = '=' by simp)
  have bare := before_name named (show ∀ c ∈ ([] : List Char).head?, c = '=' by simp)
  rw [List.append_nil] at bare
  obtain ⟨key', marked', -⟩ := bare
  simp only [splitFlag, key, key', tail, marked, marked']
  simp

variable {kindOf : Token → Kind} {args args' rest' : List Token}

/-- What is no flag stays as it is. -/
theorem Respelled.plain (respelled : Respelled sep boolValues kindOf (next :: rest) args') (plain : isFlagToken next = false) :
    ∃ rest', args' = next :: rest' ∧ Respelled sep boolValues kindOf rest rest' := by
  cases respelled with
  | keep _ later => exact ⟨_, rfl, later⟩
  | swap =>
    rw [isFlagToken_long] at plain
    exact absurd plain (by decide)
  | split =>
    rw [isFlagToken_long] at plain
    exact absurd plain (by decide)

/-- A token that leaves the next one leaves it in every spelling. -/
theorem Respelled.leaves (respelled : Respelled sep boolValues kindOf rest rest')
    (leaves : ∀ next ∈ rest.head?, takesValue argMap sep boolValues tok next = false) :
    ∀ next ∈ rest'.head?, takesValue argMap sep boolValues tok next = false := by
  intro next first
  cases respelled with
  | nil => exact absurd first (by simp)
  | keep tok later => exact leaves next first
  | swap named named' begins same later =>
    obtain rfl := Option.some.inj first
    exact not_takesValue_of_isFlagToken (isFlagToken_long _)
  | split named splits later =>
    obtain rfl := Option.some.inj first
    exact not_takesValue_of_isFlagToken (isFlagToken_long _)

/-- A flag matters by its key. -/
theorem effect_congr {tok' : Token} (flag : isFlagToken tok = true) (flag' : isFlagToken tok' = true)
    (same : (splitFlag sep tok).1 = (splitFlag sep tok').1) (val : Option Token) :
    effect argMap sep reading tok val = effect argMap sep reading tok' val := by
  simp only [effect, flag, flag', same, not_true_eq_false, if_false]

theorem takesValue_congr {tok' : Token} (flag : isFlagToken tok = true) (flag' : isFlagToken tok' = true)
    (same : splitFlag sep tok = splitFlag sep tok') (next : Token) :
    takesValue argMap sep boolValues tok next = takesValue argMap sep boolValues tok' next := by
  simp only [takesValue, flag, flag', same]

/-- A value that is written behind the key or in a token of its own. -/
theorem readFlags_split {name val : List Char} (named : '=' ∉ name)
    (splits : Splits sep boolValues (kind argMap sep) ('-' :: '-' :: name) val) :
    readFlags argMap sep boolValues reading (('-' :: '-' :: name) :: val :: rest) =
      readFlags argMap sep boolValues (effect argMap sep reading ('-' :: '-' :: (name ++ '=' :: val)) (some val)) rest := by
  obtain ⟨whole, bare⟩ : splitFlag sep ('-' :: '-' :: (name ++ '=' :: val)) = _ ∧ _ := splitFlag_split sep named
  have same : effect argMap sep reading ('-' :: '-' :: (name ++ '=' :: val)) (some val) =
      effect argMap sep reading ('-' :: '-' :: name) (some val) :=
    effect_congr (isFlagToken_long _) (isFlagToken_long _) (by rw [whole]) _
  rw [same]
  rcases kinds : kind argMap sep (splitFlag sep ('-' :: '-' :: name)).1 with _ | _ | _
  · simp only [Splits, kinds] at splits
    exact readFlags_takes (by simp [takesValue, isFlagToken_long, bare, kinds, splits])
  · simp only [Splits, kinds] at splits
    exact readFlags_takes (by simp [takesValue, isFlagToken_long, bare, kinds, splits])
  · -- an unknown flag takes nothing, and what follows it is no positional
    simp only [Splits, kinds] at splits
    have unknown : resolve argMap sep (splitFlag sep ('-' :: '-' :: name)).1 = none := by
      rw [kind] at kinds
      split at kinds
      · rename_i flag _ _
        rcases conv : flag.conv <;> simp [conv, Conv.kind] at kinds
      · assumption
    have ignored (tok : Token) (rest : List Token) (reading : Reading V) (plain : isFlagToken tok = false) :
        readFlags argMap sep boolValues reading (tok :: rest) =
          readFlags argMap sep boolValues (reading.positionalToken tok) rest := by
      rw [readFlags, if_pos (by simp [plain])]
    rw [readFlags_leaves (by simp [takesValue, kinds]), ignored _ _ _ splits]
    simp [effect, isFlagToken_long, unknown, Reading.unknownFlag, Reading.positionalToken]

theorem readFlags_respelled (respelled : Respelled sep boolValues (kind argMap sep) args args') (reading : Reading V) :
    readFlags argMap sep boolValues reading args = readFlags argMap sep boolValues reading args' := by
  revert reading args'
  induction args using args_induction argMap sep boolValues with
  | nil =>
    intro args' respelled reading
    cases respelled
    rfl
  | takes tok next rest takes ih =>
    intro args' respelled reading
    have plain := not_isFlagToken_of_takesValue takes
    cases respelled with
    | keep _ later =>
      obtain ⟨rest', rfl, later'⟩ := later.plain plain
      rw [readFlags_takes takes, readFlags_takes takes]
      exact ih later' _
    | @swap _ _ name name' tail named named' begins same later =>
      obtain ⟨rest', rfl, later'⟩ := later.plain plain
      have split := splitFlag_swap sep named named' begins same
      have moves : effect argMap sep reading ('-' :: '-' :: (name ++ tail)) (some next) =
          effect argMap sep reading ('-' :: '-' :: (name' ++ tail)) (some next) :=
        effect_congr (isFlagToken_long _) (isFlagToken_long _) (by rw [split]) _
      have takes' := takes
      rw [takesValue_congr (isFlagToken_long _) (isFlagToken_long _) split next] at takes'
      rw [readFlags_takes takes, readFlags_takes takes', moves]
      exact ih later' _
    | split named splits later =>
      simp [takesValue, (splitFlag_split sep named).1] at takes
  | leaves tok rest leaves ih =>
    intro args' respelled reading
    cases respelled with
    | keep _ later =>
      rw [readFlags_leaves leaves, readFlags_leaves (later.leaves leaves)]
      exact ih later _
    | @swap _ _ name name' tail named named' begins same later =>
      have split := splitFlag_swap sep named named' begins same
      have moves (val : Option Token) : effect argMap sep reading ('-' :: '-' :: (name ++ tail)) val =
          effect argMap sep reading ('-' :: '-' :: (name' ++ tail)) val :=
        effect_congr (isFlagToken_long _) (isFlagToken_long _) (by rw [split]) val
      rw [readFlags_leaves leaves, readFlags_leaves, split, moves]
      · exact ih later _
      · intro next first
        rw [← takesValue_congr (isFlagToken_long _) (isFlagToken_long _) split next]
        exact later.leaves leaves next first
    | split named splits later =>
      rw [readFlags_leaves leaves, readFlags_split named splits, (splitFlag_split sep named).1]
      exact ih later _

/-! The last occurrence wins. -/

/-- No bool flag has the name. -/
def TakesValue (argMap : ArgMap V) (name : List Char) : Prop :=
  ∀ flag ∈ argMap.items, flag.name = name → flag.conv.kind = .taking

theorem mem_of_resolve {key : Token} {flag : Flag V} {negated : Bool}
    (found : resolve argMap sep key = some (flag, negated)) : flag ∈ argMap.items := by
  simp only [resolve] at found
  split at found
  · obtain ⟨other, here, same⟩ := Option.map_eq_some_iff.mp found
    rw [← (Prod.mk.inj same).1]
    exact (Keyed.find?_some here).1
  · obtain ⟨other, here, same⟩ := Option.map_eq_some_iff.mp found
    rw [← (Prod.mk.inj same).1]
    exact (Keyed.find?_some here).1

/-- What a name has once a flag and its value were read. -/
theorem find?_effect {name : List Char} (takes : TakesValue argMap name) (flag : isFlagToken tok = true)
    {val follows : Option Token}
    (read : kind argMap sep (splitFlag sep tok).1 = .taking → val = valueOf sep (tok, follows)) :
    (effect argMap sep reading tok val).result.find? name =
      (converted argMap sep name (tok, follows)).elim (reading.result.find? name)
        fun value => some { name, value := .other value } := by
  simp only [effect, flag, not_true_eq_false, if_false, converted]
  rcases found : resolve argMap sep (splitFlag sep tok).1 with _ | ⟨⟨key, written, _ | convert⟩, negated⟩
  · rfl
  · have other : written ≠ name := by
      intro same
      exact absurd (takes _ (mem_of_resolve found) same) (by simp [Conv.kind])
    simp [Reading.setBool, Reading.set, Keyed.find?_put, other]
  · rw [← read (by simp [kind, found, Conv.kind])]
    by_cases same : written = name
    · subst same
      rcases val with _ | val
      · simp [Reading.convert]
      · by_cases absent : val = [] ∨ hasUnexpandedVar val = true
        · simp [Reading.convert, absent]
        · cases value : convert val <;> simp [Reading.convert, Reading.set, absent, value, Keyed.find?_put]
    · have kept : (reading.convert written convert val).result.find? name = reading.result.find? name := by
        unfold Reading.convert
        split
        · rfl
        · split
          · rfl
          · split
            · exact Keyed.find?_put_of_ne same _
            · rfl
      simp [same, kept]

/-- Later ones count first. -/
theorem elim_getLast?_filterMap_cons {α β γ : Type} (f : α → Option β) (a : α) (list : List α) (first : γ) (g : β → γ) :
    ((a :: list).filterMap f).getLast?.elim first g =
      (list.filterMap f).getLast?.elim ((f a).elim first g) g := by
  cases here : f a with
  | none => simp [here]
  | some value =>
    rw [List.filterMap_cons, here, List.getLast?_cons]
    cases (list.filterMap f).getLast? <;> rfl

theorem find?_readFlags {name : List Char} (takes : TakesValue argMap name) (args : List Token) (reading : Reading V) :
    (readFlags argMap sep boolValues reading args).result.find? name =
      ((occurrences args).filterMap (converted argMap sep name)).getLast?.elim (reading.result.find? name)
        fun value => some { name, value := .other value } := by
  revert reading
  induction args using args_induction argMap sep boolValues with
  | nil =>
    intro reading
    rfl
  | takes tok next rest taken ih =>
    intro reading
    have plain := not_isFlagToken_of_takesValue taken
    have parts := taken
    simp only [takesValue, Bool.and_eq_true, decide_eq_true_eq] at parts
    have seen : occurrences (tok :: next :: rest) = (tok, some next) :: occurrences rest := by
      simp [occurrences, parts.1.1, plain]
    have read : some next = valueOf sep (tok, some next) := by simp [valueOf, Option.filter, parts.1.2, plain]
    rw [readFlags_takes taken, ih, seen, elim_getLast?_filterMap_cons, find?_effect takes parts.1.1 fun _ => read]
  | leaves tok rest leaves ih =>
    intro reading
    rw [readFlags_leaves leaves, ih]
    cases flag : isFlagToken tok with
    | true =>
      have seen : occurrences (tok :: rest) = (tok, rest.head?) :: occurrences rest := by simp [occurrences, flag]
      rw [seen, elim_getLast?_filterMap_cons, find?_effect takes flag]
      intro kinds
      rcases given : (splitFlag sep tok).2 with _ | val
      · rcases follows : rest.head? with _ | next
        · simp [valueOf, given]
        · have left := leaves next follows
          have other : isFlagToken next = true := by simpa [takesValue, flag, given, kinds] using left
          simp [valueOf, Option.filter, given, other]
      · simp [valueOf, given]
    | false =>
      have seen : occurrences (tok :: rest) = occurrences rest := by simp [occurrences, flag]
      rw [seen]
      simp [effect, flag, Reading.positionalToken]

variable (argMap sep boolValues)

/-- However the flags are spelled, both results are the same. A name that no bool flag has gets what the last of its
occurrences is converted to whose value is present, without a variable and converts. -/
theorem flags_read (args : List Token) :
    (∀ args', Respelled sep boolValues (kind argMap sep) args args' →
      parseFlags argMap sep boolValues args = parseFlags argMap sep boolValues args') ∧
    ∀ name, TakesValue argMap name → (parseFlags argMap sep boolValues args).1.find? name =
      ((occurrences args).filterMap (converted argMap sep name)).getLast?.map
        fun value => { name, value := .other value } := by
  refine ⟨fun args' respelled => ?_, fun name takes => ?_⟩
  · unfold parseFlags
    rw [readFlags_respelled respelled]
  · unfold parseFlags
    rw [find?_readFlags takes]
    cases ((occurrences args).filterMap (converted argMap sep name)).getLast? <;> rfl

end

/-- A flag with a value and a bool flag. -/
def tpMap : ArgMap Token where
  items := [{ key := ['-', '-', 't', 'p'], name := ['t'], conv := .other some },
    { key := ['-', '-', 'e'], name := ['e'], conv := .bool }]
  distinct := by decide

theorem flags_read_of_tp :
    parseFlags tpMap '-' false [['m'], ['-', '-', 't', 'p', '=', '4']] =
      parseFlags tpMap '-' false [['m'], ['-', '-', 't', 'p'], ['4']] ∧
    (parseFlags tpMap '-' false [['m'], ['-', '-', 't', 'p', '=', '4']]).1.find? ['t'] =
      some { name := ['t'], value := .other ['4'] } := by
  obtain ⟨same, last⟩ := flags_read tpMap '-' false [['m'], ['-', '-', 't', 'p', '=', '4']]
  have named : '=' ∉ ['t', 'p'] := by decide
  have splits : Splits '-' false (kind tpMap '-') ['-', '-', 't', 'p'] ['4'] :=
    (by decide : isFlagToken ['4'] = false)
  have takes : TakesValue tpMap ['t'] := by
    unfold TakesValue
    decide
  exact ⟨same _ (.keep _ (.split named splits .nil)), (last _ takes).trans (by decide)⟩

/-- A bool flag, and a flag with a value whose key is also its negation. -/
def negatedMap : ArgMap Token where
  items := [{ key := ['-', '-', 'x'], name := ['x'], conv := .bool },
    { key := ['-', '-', 'n', 'o', '-', 'x'], name := ['y'], conv := .other some }]
  distinct := by decide

/-- The negation comes first: what was the value of the other flag is a positional. -/
theorem negation_takes_no_value : ¬∀ (argMap : ArgMap Token) (sep : Char) (boolValues : Bool) (args args' : List Token),
    Respelled sep boolValues (ownKind argMap sep) args args' →
      parseFlags argMap sep boolValues args = parseFlags argMap sep boolValues args' := by
  intro same
  have splits : Splits '-' false (ownKind negatedMap '-') ['-', '-', 'n', 'o', '-', 'x'] ['3'] :=
    (by decide : isFlagToken ['3'] = false)
  have read := same negatedMap '-' false _ _ (Respelled.split (by decide) splits Respelled.nil)
  exact absurd (congrArg Prod.snd read) (by decide)

end AibomWebhook.FlagSpelling
