import AibomWebhook.Library.JsonNumber
import AibomWebhook.Library.JsonString
import AibomWebhook.Library.SortedMap
import Mathlib.Data.String.Basic

/-! The package encoding/json of Go, as far as a variable of type any and a raw message
are concerned: what is decoded, what is encoded, and how a raw message is compacted. -/

namespace GoEncoding
open JsonText SortedMap

/-- A decoded value; the members of an object are in the order of their names. -/
inductive Any where
  | null
  | bool (value : Bool)
  | number (value : Float64)
  | text (value : String)
  | array (items : List Any)
  | object (members : List (String × Any))

/-- What decoding builds: every object has its names in order, each once. -/
inductive Canonical : Any → Prop where
  | null : Canonical .null
  | bool (value : Bool) : Canonical (.bool value)
  | number (value : Float64) : Canonical (.number value)
  | text (value : String) : Canonical (.text value)
  | array {items : List Any} (each : ∀ item ∈ items, Canonical item) : Canonical (.array items)
  | object {members : List (String × Any)} (ordered : members.Pairwise fun first second => first.1 < second.1)
      (each : ∀ member ∈ members, Canonical member.2) : Canonical (.object members)

/-- A name or a string as Go reads it. -/
def name (body : List Glyph) : String := String.ofList (unescape body)

mutual

/-- A value, unless one of its numbers is too large. -/
def decode : Raw → Option Any
  | .null => some .null
  | .bool value => some (.bool value)
  | .number literal => literal.float.map .number
  | .string body => some (.text (name body))
  | .array items => (decodeItems items).map .array
  | .object members => (decodeMembers members).map fun found => .object (sorted (Keyed.ofList found))

def decodeItems : List Raw → Option (List Any)
  | [] => some []
  | item :: rest =>
    match decode item, decodeItems rest with
    | some first, some others => some (first :: others)
    | _, _ => none

def decodeMembers : List (List Glyph × Raw) → Option (List (String × Any))
  | [] => some []
  | (key, raw) :: rest =>
    match decode raw, decodeMembers rest with
    | some first, some others => some ((name key, first) :: others)
    | _, _ => none

end

mutual

def encode : Any → Raw
  | .null => .null
  | .bool value => .bool value
  | .number value => .number (formatFloat value)
  | .text value => .string (escape value.toList)
  | .array items => .array (encodeItems items)
  | .object members => .object (encodeMembers members)

def encodeItems : List Any → List Raw
  | [] => []
  | item :: rest => encode item :: encodeItems rest

def encodeMembers : List (String × Any) → List (List Glyph × Raw)
  | [] => []
  | (key, value) :: rest => (escape key.toList, encode value) :: encodeMembers rest

end

mutual

/-- A raw message is only compacted, and made safe for HTML. -/
def compact : Raw → Raw
  | .string body => .string (body.map Glyph.compact)
  | .array items => .array (compactItems items)
  | .object members => .object (compactMembers members)
  | raw => raw

def compactItems : List Raw → List Raw
  | [] => []
  | item :: rest => compact item :: compactItems rest

def compactMembers : List (List Glyph × Raw) → List (List Glyph × Raw)
  | [] => []
  | (key, raw) :: rest => (key.map Glyph.compact, compact raw) :: compactMembers rest

end

/-! Decoding. -/

theorem decodeItems_mem {raws : List Raw} {items : List Any} (read : decodeItems raws = some items) :
    ∀ item ∈ items, ∃ raw ∈ raws, decode raw = some item := by
  induction raws generalizing items with
  | nil =>
    obtain rfl := Option.some.inj read
    exact fun item member => absurd member List.not_mem_nil
  | cons raw rest ih =>
    rw [decodeItems] at read
    split at read
    · rename_i first others here later
      obtain rfl := Option.some.inj read
      intro item member
      rcases List.mem_cons.mp member with rfl | after
      · exact ⟨raw, List.mem_cons_self, here⟩
      · obtain ⟨source, inside, found⟩ := ih later item after
        exact ⟨source, List.mem_cons_of_mem raw inside, found⟩
    · cases read

theorem decodeMembers_mem {raws : List (List Glyph × Raw)} {members : List (String × Any)}
    (read : decodeMembers raws = some members) :
    ∀ member ∈ members, ∃ raw ∈ raws, decode raw.2 = some member.2 := by
  induction raws generalizing members with
  | nil =>
    obtain rfl := Option.some.inj read
    exact fun item member => absurd member List.not_mem_nil
  | cons raw rest ih =>
    obtain ⟨key, raw⟩ := raw
    rw [decodeMembers] at read
    split at read
    · rename_i first others here later
      obtain rfl := Option.some.inj read
      intro item member
      rcases List.mem_cons.mp member with rfl | after
      · exact ⟨(key, raw), List.mem_cons_self, here⟩
      · obtain ⟨source, inside, found⟩ := ih later item after
        exact ⟨source, List.mem_cons_of_mem _ inside, found⟩
    · cases read

theorem canonical_of_decode {raw : Raw} {value : Any} (read : decode raw = some value) : Canonical value := by
  induction raw using Raw.induct generalizing value with
  | null =>
    obtain rfl := Option.some.inj read
    exact .null
  | bool flag =>
    obtain rfl := Option.some.inj read
    exact .bool flag
  | number literal =>
    obtain ⟨f, _, rfl⟩ := Option.map_eq_some_iff.mp read
    exact .number f
  | string body =>
    obtain rfl := Option.some.inj read
    exact .text _
  | array items each =>
    obtain ⟨found, inside, rfl⟩ := Option.map_eq_some_iff.mp read
    refine .array fun item member => ?_
    obtain ⟨source, present, here⟩ := decodeItems_mem inside item member
    exact each source present here
  | object members each =>
    obtain ⟨found, inside, rfl⟩ := Option.map_eq_some_iff.mp read
    refine .object (ordered_sorted _) fun member present => ?_
    obtain ⟨source, original, here⟩ :=
      decodeMembers_mem inside member (Keyed.mem_ofList ((sorted_perm _).mem_iff.mp present))
    exact each source original here

theorem decodeItems_encodeItems {items : List Any} (each : ∀ item ∈ items, decode (encode item) = some item) :
    decodeItems (encodeItems items) = some items := by
  induction items with
  | nil => rfl
  | cons item rest ih =>
    have later := ih fun other member => each other (List.mem_cons_of_mem item member)
    rw [encodeItems, decodeItems, each item List.mem_cons_self, later]

@[simp] theorem name_escape (text : String) : name (escape text.toList) = text := by
  rw [name, unescape_escape, String.ofList_toList]

theorem decodeMembers_encodeMembers {members : List (String × Any)}
    (each : ∀ member ∈ members, decode (encode member.2) = some member.2) :
    decodeMembers (encodeMembers members) = some members := by
  induction members with
  | nil => rfl
  | cons member rest ih =>
    obtain ⟨key, value⟩ := member
    have here : decode (encode value) = some value := each (key, value) List.mem_cons_self
    have later := ih fun other member => each other (List.mem_cons_of_mem _ member)
    rw [encodeMembers, decodeMembers, here, later, name_escape]

/-- A value that was encoded is decoded again. -/
theorem decode_encode {value : Any} (canonical : Canonical value) : decode (encode value) = some value := by
  induction canonical with
  | null => rfl
  | bool flag => rfl
  | number f => rw [encode, decode, float_formatFloat]; rfl
  | text text => rw [encode, decode, name_escape]
  | array _ each => rw [encode, decode, decodeItems_encodeItems each]; rfl
  | object ordered _ each => rw [encode, decode, decodeMembers_encodeMembers each, Option.map_some, sorted_ofList ordered]

/-! What is encoded is legal, and nested no deeper than what was decoded. -/

theorem legalItems_iff {items : List Raw} : legalItems items = true ↔ ∀ item ∈ items, item.legal = true := by
  induction items with
  | nil => exact ⟨fun _ item member => absurd member List.not_mem_nil, fun _ => rfl⟩
  | cons item rest ih => rw [legalItems, Bool.and_eq_true, ih, List.forall_mem_cons]

theorem legalMembers_iff {members : List (List Glyph × Raw)} : legalMembers members = true ↔
    ∀ member ∈ members, member.1.all Glyph.legal = true ∧ member.2.legal = true := by
  induction members with
  | nil => exact ⟨fun _ item member => absurd member List.not_mem_nil, fun _ => rfl⟩
  | cons member rest ih =>
    obtain ⟨key, raw⟩ := member
    rw [legalMembers, Bool.and_eq_true, Bool.and_eq_true, ih, List.forall_mem_cons]

theorem depthItems_le_iff {items : List Raw} {n : Nat} : depthItems items ≤ n ↔ ∀ item ∈ items, item.depth ≤ n := by
  induction items with
  | nil => exact ⟨fun _ item member => absurd member List.not_mem_nil, fun _ => Nat.zero_le n⟩
  | cons item rest ih => rw [depthItems, Nat.max_le, ih, List.forall_mem_cons]

theorem depthMembers_le_iff {members : List (List Glyph × Raw)} {n : Nat} :
    depthMembers members ≤ n ↔ ∀ member ∈ members, member.2.depth ≤ n := by
  induction members with
  | nil => exact ⟨fun _ item member => absurd member List.not_mem_nil, fun _ => Nat.zero_le n⟩
  | cons member rest ih =>
    obtain ⟨key, raw⟩ := member
    rw [depthMembers, Nat.max_le, ih, List.forall_mem_cons]

theorem encodeItems_eq_map (items : List Any) : encodeItems items = items.map encode := by
  induction items with
  | nil => rfl
  | cons item rest ih => rw [encodeItems, ih, List.map_cons]

theorem encodeMembers_eq_map (members : List (String × Any)) :
    encodeMembers members = members.map fun member => (escape member.1.toList, encode member.2) := by
  induction members with
  | nil => rfl
  | cons member rest ih => rw [encodeMembers, ih, List.map_cons]

theorem encode_legal {value : Any} (canonical : Canonical value) : (encode value).legal = true := by
  induction canonical with
  | null => rfl
  | bool flag => rfl
  | number f => exact formatFloat_legal f
  | text text => exact escape_legal text.toList
  | array _ each =>
    rw [encode, Raw.legal, legalItems_iff, encodeItems_eq_map, List.forall_mem_map]
    exact each
  | object _ _ each =>
    rw [encode, Raw.legal, legalMembers_iff, encodeMembers_eq_map, List.forall_mem_map]
    exact fun member present => ⟨escape_legal member.1.toList, each member present⟩

theorem depth_encode {raw : Raw} {value : Any} (read : decode raw = some value) {n : Nat} (shallow : raw.depth ≤ n) :
    (encode value).depth ≤ n := by
  induction raw using Raw.induct generalizing value n with
  | null =>
    obtain rfl := Option.some.inj read
    exact Nat.zero_le n
  | bool flag =>
    obtain rfl := Option.some.inj read
    exact Nat.zero_le n
  | number literal =>
    obtain ⟨f, _, rfl⟩ := Option.map_eq_some_iff.mp read
    exact Nat.zero_le n
  | string body =>
    obtain rfl := Option.some.inj read
    exact Nat.zero_le n
  | array items each =>
    obtain ⟨found, inside, rfl⟩ := Option.map_eq_some_iff.mp read
    have below := depthItems_le_iff.mp (Nat.le_sub_one_of_lt shallow)
    have inner : depthItems (encodeItems found) ≤ n - 1 := by
      rw [depthItems_le_iff, encodeItems_eq_map, List.forall_mem_map]
      intro item member
      obtain ⟨source, present, here⟩ := decodeItems_mem inside item member
      exact each source present here (below source present)
    simp only [Raw.depth] at shallow
    simp only [encode, Raw.depth]
    omega
  | object members each =>
    obtain ⟨found, inside, rfl⟩ := Option.map_eq_some_iff.mp read
    have below := depthMembers_le_iff.mp (Nat.le_sub_one_of_lt shallow)
    have inner : depthMembers (encodeMembers (sorted (Keyed.ofList found))) ≤ n - 1 := by
      rw [depthMembers_le_iff, encodeMembers_eq_map, List.forall_mem_map]
      intro member present
      obtain ⟨source, original, here⟩ :=
        decodeMembers_mem inside member (Keyed.mem_ofList ((sorted_perm _).mem_iff.mp present))
      exact each source original here (below source original)
    simp only [Raw.depth] at shallow
    simp only [encode, Raw.depth]
    omega

/-! Compacting. -/

theorem compactItems_eq_map (items : List Raw) : compactItems items = items.map compact := by
  induction items with
  | nil => rfl
  | cons item rest ih => rw [compactItems, ih, List.map_cons]

theorem compactMembers_eq_map (members : List (List Glyph × Raw)) :
    compactMembers members = members.map fun member => (member.1.map Glyph.compact, compact member.2) := by
  induction members with
  | nil => rfl
  | cons member rest ih => rw [compactMembers, ih, List.map_cons]

theorem compact_legal {raw : Raw} (legal : raw.legal = true) : (compact raw).legal = true := by
  have body (text : List Glyph) (each : text.all Glyph.legal = true) : (text.map Glyph.compact).all Glyph.legal = true := by
    rw [List.all_map, List.all_eq_true]
    exact fun glyph member => Glyph.compact_legal (List.all_eq_true.mp each glyph member)
  induction raw using Raw.induct with
  | null => exact legal
  | bool flag => exact legal
  | number literal => exact legal
  | string text => exact body text legal
  | array items each =>
    rw [Raw.legal, legalItems_iff] at legal
    rw [compact, Raw.legal, legalItems_iff, compactItems_eq_map, List.forall_mem_map]
    exact fun item member => each item member (legal item member)
  | object members each =>
    rw [Raw.legal, legalMembers_iff] at legal
    rw [compact, Raw.legal, legalMembers_iff, compactMembers_eq_map, List.forall_mem_map]
    exact fun member present => ⟨body member.1 (legal member present).1, each member present (legal member present).2⟩

theorem depth_compact (raw : Raw) : (compact raw).depth = raw.depth := by
  induction raw using Raw.induct with
  | null => rfl
  | bool flag => rfl
  | number literal => rfl
  | string text => rfl
  | array items each =>
    have inner : depthItems (compactItems items) = depthItems items := by
      refine Nat.le_antisymm ?_ ?_
      · rw [depthItems_le_iff, compactItems_eq_map, List.forall_mem_map]
        exact fun item member => each item member ▸ depthItems_le_iff.mp (Nat.le_refl _) item member
      · rw [depthItems_le_iff]
        intro item member
        rw [← each item member]
        refine depthItems_le_iff.mp (Nat.le_refl _) (compact item) ?_
        rw [compactItems_eq_map]
        exact List.mem_map_of_mem member
    rw [compact, Raw.depth, Raw.depth, inner]
  | object members each =>
    have inner : depthMembers (compactMembers members) = depthMembers members := by
      refine Nat.le_antisymm ?_ ?_
      · rw [depthMembers_le_iff, compactMembers_eq_map, List.forall_mem_map]
        exact fun member present => each member present ▸ depthMembers_le_iff.mp (Nat.le_refl _) member present
      · rw [depthMembers_le_iff]
        intro member present
        rw [← each member present]
        refine depthMembers_le_iff.mp (Nat.le_refl _) (member.1.map Glyph.compact, compact member.2) ?_
        rw [compactMembers_eq_map]
        exact List.mem_map_of_mem (f := fun member => (member.1.map Glyph.compact, compact member.2)) present
    rw [compact, Raw.depth, Raw.depth, inner]

theorem map_compact_compact (body : List Glyph) : (body.map Glyph.compact).map Glyph.compact = body.map Glyph.compact := by
  rw [List.map_map]
  exact List.map_congr_left fun glyph _ => Glyph.compact_compact glyph

theorem compact_compact (raw : Raw) : compact (compact raw) = compact raw := by
  induction raw using Raw.induct with
  | null => rfl
  | bool flag => rfl
  | number literal => rfl
  | string text => rw [compact, compact, map_compact_compact]
  | array items each =>
    simp only [compact, compactItems_eq_map, List.map_map]
    exact congrArg Raw.array (List.map_congr_left each)
  | object members each =>
    simp only [compact, compactMembers_eq_map, List.map_map]
    refine congrArg Raw.object (List.map_congr_left fun member present => ?_)
    exact Prod.ext (map_compact_compact member.1) (each member present)

theorem name_map_compact (body : List Glyph) : name (body.map Glyph.compact) = name body := by
  rw [name, unescape, units_map_compact]
  rfl

/-- Compacting does not change what is decoded. -/
theorem decode_compact (raw : Raw) : decode (compact raw) = decode raw := by
  induction raw using Raw.induct with
  | null => rfl
  | bool flag => rfl
  | number literal => rfl
  | string text => rw [compact, decode, decode, name_map_compact]
  | array items each =>
    have inner : decodeItems (compactItems items) = decodeItems items := by
      induction items with
      | nil => rfl
      | cons item rest ih =>
        rw [compactItems, decodeItems, decodeItems, each item List.mem_cons_self,
          ih fun other member => each other (List.mem_cons_of_mem item member)]
    rw [compact, decode, decode, inner]
  | object members each =>
    have inner : decodeMembers (compactMembers members) = decodeMembers members := by
      induction members with
      | nil => rfl
      | cons member rest ih =>
        obtain ⟨key, raw⟩ := member
        have here : decode (compact raw) = decode raw := each (key, raw) List.mem_cons_self
        rw [compactMembers, decodeMembers, decodeMembers, here, name_map_compact,
          ih fun other member => each other (List.mem_cons_of_mem _ member)]
    rw [compact, decode, decode, inner]

end GoEncoding
