import AibomWebhook.RegistryLookup

/-! The grammar of container image references, and what the postprocess Job reads of one
(postprocess.py, `_strip_tag_digest` and `_parse_image_ref`). -/

namespace AibomWebhook.ImageReference
open PyUrl RegistryLookup

/-! The grammar. -/

def isHostChar (c : Char) : Bool := c.isAlphanum || ['.', '-', ':', '[', ']'].contains c

def isPathChar (c : Char) : Bool := ('a' ≤ c && c ≤ 'z') || c.isDigit || ['.', '_', '-'].contains c

def isTagChar (c : Char) : Bool := c.isAlphanum || ['.', '_', '-'].contains c

/-- A first component is a host if it can be told from a path. -/
def isDomain (first : List Char) : Bool :=
  first.contains '.' || first.contains ':' || first == "localhost".toList || first.any Char.isUpper

/-- A text of some letters. -/
structure Part (isLetter : Char → Bool) where
  letters : List Char
  nonempty : letters ≠ []
  legal : ∀ c ∈ letters, isLetter c = true

/-- A reference; the host comes with its port, and the digest is one of sha256. -/
structure Reference where
  scheme : Option (Part isSchemeChar)
  host : Option (Part isHostChar)
  folders : List (Part isPathChar)
  leaf : Part isPathChar
  tag : Option (Part isTagChar)
  digest : Option (Part isHexDigit)
  hosted : ∀ h, host = some h → isDomain h.letters = true
  unhosted : host = none → ∀ first, folders.head? = some first → isDomain first.letters = false

namespace Reference
variable (r : Reference)

def schemeText : List Char := (r.scheme.map fun s => s.letters ++ "://".toList).getD []

def hostText : List Char := (r.host.map fun h => h.letters ++ ['/']).getD []

def foldersText : List Char := r.folders.flatMap fun f => f.letters ++ ['/']

def tagText : List Char := (r.tag.map fun t => ':' :: t.letters).getD []

def digestText : List Char := (r.digest.map fun d => "@sha256:".toList ++ d.letters).getD []

def path : List Char := r.foldersText ++ r.leaf.letters

/-- The reference without its scheme, tag and digest. -/
def name : List Char := r.hostText ++ r.path

def text : List Char := r.schemeText ++ r.name ++ r.tagText ++ r.digestText

/-- A digest alone reads like a repository of that name with a tag. -/
def BareDigest : Prop :=
  r.host = none ∧ r.folders = [] ∧ r.leaf.letters = "sha256".toList ∧ r.digest = none ∧
    ∃ t, r.tag = some t ∧ ∀ c ∈ t.letters, isHexDigit c = true

instance : Decidable r.BareDigest := by
  unfold BareDigest
  have tagged : Decidable (∃ t, r.tag = some t ∧ ∀ c ∈ t.letters, isHexDigit c = true) :=
    match found : r.tag with
    | none => isFalse fun ⟨_, same, _⟩ => nomatch same
    | some t => @decidable_of_iff _ (∀ c ∈ t.letters, isHexDigit c = true)
        ⟨fun all => ⟨t, rfl, all⟩, fun ⟨_, same, all⟩ => Option.some.inj same ▸ all⟩ (List.decidableBAll _ t.letters)
  infer_instance

/-- Docker Hub's official repositories have one component. -/
def library : List Char := if r.folders.isEmpty then "library/".toList ++ r.path else r.path

/-- The registry's host and the repository. -/
def registry : List Char × List Char :=
  match r.host with
  | none => ("registry-1.docker.io".toList, r.library)
  | some h =>
    if h.letters = "docker.io".toList ∨ h.letters = "index.docker.io".toList then ("registry-1.docker.io".toList, r.library)
    else (h.letters, r.path)

end Reference

/-! The property. -/

/-- The reference is parsed by its grammar; only its tag and its digest are stripped. -/
structure Parsed (r : Reference) : Prop where
  parse : parseImageRef r.text = if r.BareDigest then none else some r.registry
  strip : stripTagDigest r.text = r.schemeText ++ r.name

/-- Lower-case letters and hyphens are taken for a scheme. -/
def Known (letters : List Char) : Prop := ∀ c ∈ letters, c = '-' ∨ 'a' ≤ c ∧ c ≤ 'z'

/-- The scheme is one of the lower-case letters and hyphens that are looked for. -/
def SchemeKnown (r : Reference) : Prop := ∀ s, r.scheme = some s → Known s.letters

/-- The host is told by a dot or a colon, or is localhost. -/
def HostKnown (r : Reference) : Prop :=
  ∀ h, r.host = some h → '.' ∈ h.letters ∨ ':' ∈ h.letters ∨ h.letters = "localhost".toList

/-- The scheme and the host are known ones and the name does not begin like a digest. -/
def Regular (r : Reference) : Prop :=
  if r.BareDigest then SchemeKnown r ∨ ∃ s, r.scheme = some s ∧ "sha256".toList <+: s.letters
  else SchemeKnown r ∧ HostKnown r ∧ ¬"sha256".toList <+: r.name

theorem Part.free {isLetter : Char → Bool} (part : Part isLetter) {mark : Char} (illegal : isLetter mark = false) :
    mark ∉ part.letters := by
  intro member
  rw [part.legal mark member] at illegal
  cases illegal

/-! Stripping. -/

section Strip
variable {base leaf rest : List Char}

/-- Nothing, or something up to a slash. -/
def Slashed (base : List Char) : Prop := base = [] ∨ ∃ start, base = start ++ ['/']

theorem Slashed.append (first : Slashed base) (second : Slashed rest) : Slashed (base ++ rest) := by
  rcases second with rfl | ⟨start, rfl⟩
  · rwa [List.append_nil]
  · exact Or.inr ⟨base ++ start, (List.append_assoc ..).symm⟩

theorem rdropWhile_slashed (slashed : Slashed base) (free : '/' ∉ leaf) : (base ++ leaf).rdropWhile (· != '/') = base := by
  have dropped : leaf.rdropWhile (· != '/') = [] := by
    rw [List.rdropWhile_eq_nil_iff]
    intro c member
    simpa using ne_of_mem_of_not_mem member free
  rcases slashed with rfl | ⟨start, rfl⟩
  · exact dropped
  · rw [rdropWhile_append_of_last (by simp) (by simp), dropped, List.append_nil]

theorem afterLast_slashed (slashed : Slashed base) (free : '/' ∉ leaf) : afterLast '/' (base ++ leaf) = leaf := by
  rcases slashed with rfl | ⟨start, rfl⟩
  · rw [List.nil_append, afterLast, List.rtakeWhile_eq_self_iff]
    intro c member
    simpa using ne_of_mem_of_not_mem member free
  · rw [List.append_assoc]
    exact afterLast_mark free

/-- A text that is nothing or begins with the mark. -/
theorem before_begins {mark : Char} (free : mark ∉ base) (begins : rest = [] ∨ ∃ more, rest = mark :: more) :
    before mark (base ++ rest) = base := by
  rcases begins with rfl | ⟨more, rfl⟩
  · rw [before_append free]
    exact List.append_nil base
  · exact before_mark free

/-- What is stripped is the tag of the last component, and what follows the first at sign. -/
theorem stripTagDigest_parts {tag digest : List Char} (slashed : Slashed base) (baseFree : '@' ∉ base)
    (leafFree : '/' ∉ leaf ∧ ':' ∉ leaf ∧ '@' ∉ leaf) (tagFree : '/' ∉ tag ∧ '@' ∉ tag)
    (tagged : tag = [] ∨ ∃ more, tag = ':' :: more) (digested : digest = [] ∨ ∃ more, digest = '@' :: more) :
    stripTagDigest (base ++ leaf ++ tag ++ digest) = base ++ leaf := by
  have unsigned : '@' ∉ base ++ leaf ++ tag := by simp [baseFree, leafFree.2.2, tagFree.2]
  have whole : before '@' (base ++ leaf ++ tag ++ digest) = base ++ (leaf ++ tag) := by
    rw [before_begins unsigned digested, List.append_assoc]
  have unslashed : '/' ∉ leaf ++ tag := by simp [leafFree.1, tagFree.1]
  rw [stripTagDigest, whole, rdropWhile_slashed slashed unslashed, afterLast_slashed slashed unslashed, before_begins leafFree.2.1 tagged]

theorem slashed_rdropWhile (text : List Char) : Slashed (text.rdropWhile (· != '/')) := by
  by_cases nothing : text.rdropWhile (· != '/') = []
  · exact Or.inl nothing
  · have last := List.rdropWhile_last_not (· != '/') text nothing
    refine Or.inr ⟨(text.rdropWhile (· != '/')).dropLast, ?_⟩
    have slash : (text.rdropWhile (· != '/')).getLast nothing = '/' := by simpa using last
    have split := List.dropLast_append_getLast nothing
    rw [slash] at split
    exact split.symm

/-- Nothing more is stripped from what was stripped. -/
theorem stripTagDigest_idempotent (text : List Char) : stripTagDigest (stripTagDigest text) = stripTagDigest text := by
  have unsigned : '@' ∉ before '@' text := by
    intro member
    simpa using List.mem_takeWhile_imp member
  have leafUnslashed : '/' ∉ afterLast '/' (before '@' text) := by
    intro member
    simpa using List.mem_rtakeWhile_imp member
  have inside : ∀ c ∈ before ':' (afterLast '/' (before '@' text)), c ∈ afterLast '/' (before '@' text) := fun c member =>
    (List.takeWhile_prefix _).mem member
  have again := @stripTagDigest_parts ((before '@' text).rdropWhile (· != '/')) (before ':' (afterLast '/' (before '@' text))) [] []
    (slashed_rdropWhile _) (fun member => unsigned ((List.rdropWhile_prefix _ _).mem member))
    ⟨fun member => leafUnslashed (inside _ member), ?_, fun member => unsigned ((List.rtakeWhile_suffix _ _).mem (inside _ member))⟩
    ⟨List.not_mem_nil, List.not_mem_nil⟩ (Or.inl rfl) (Or.inl rfl)
  · rw [List.append_nil, List.append_nil] at again
    exact again
  · intro member
    simpa using List.mem_takeWhile_imp member

end Strip

/-! The parts of a reference. -/

namespace Reference
variable (r : Reference)

theorem slashed_hostText : Slashed r.hostText := by
  unfold hostText
  cases r.host with
  | none => exact Or.inl rfl
  | some h => exact Or.inr ⟨h.letters, rfl⟩

theorem slashed_folders (folders : List (Part isPathChar)) : Slashed (folders.flatMap fun f => f.letters ++ ['/']) := by
  induction folders with
  | nil => exact Or.inl rfl
  | cons f rest ih => exact Slashed.append (Or.inr ⟨f.letters, rfl⟩) ih

theorem slashed_schemeText : Slashed r.schemeText := by
  unfold schemeText
  cases r.scheme with
  | none => exact Or.inl rfl
  | some s => exact Or.inr ⟨s.letters ++ [':', '/'], by simp⟩

theorem leaf_free : '/' ∉ r.leaf.letters ∧ ':' ∉ r.leaf.letters ∧ '@' ∉ r.leaf.letters :=
  ⟨r.leaf.free (by decide), r.leaf.free (by decide), r.leaf.free (by decide)⟩

theorem tagText_free : '/' ∉ r.tagText ∧ '@' ∉ r.tagText := by
  unfold tagText
  cases r.tag with
  | none => exact ⟨List.not_mem_nil, List.not_mem_nil⟩
  | some t =>
    have slash : '/' ∉ t.letters := t.free (by decide)
    have sign : '@' ∉ t.letters := t.free (by decide)
    simp [slash, sign]

theorem tagged : r.tagText = [] ∨ ∃ more, r.tagText = ':' :: more := by
  unfold tagText
  cases r.tag with
  | none => exact Or.inl rfl
  | some t => exact Or.inr ⟨t.letters, rfl⟩

theorem digested : r.digestText = [] ∨ ∃ more, r.digestText = '@' :: more := by
  unfold digestText
  cases r.digest with
  | none => exact Or.inl rfl
  | some d => exact Or.inr ⟨_, rfl⟩

theorem unsigned_folders (folders : List (Part isPathChar)) : '@' ∉ folders.flatMap fun f => f.letters ++ ['/'] := by
  rw [List.mem_flatMap]
  rintro ⟨f, -, member⟩
  have free : '@' ∉ f.letters := f.free (by decide)
  simp [free] at member

theorem unsigned_hostText : '@' ∉ r.hostText := by
  unfold hostText
  cases r.host with
  | none => exact List.not_mem_nil
  | some h =>
    have free : '@' ∉ h.letters := h.free (by decide)
    simp [free]

theorem unsigned_schemeText : '@' ∉ r.schemeText := by
  unfold schemeText
  cases r.scheme with
  | none => exact List.not_mem_nil
  | some s =>
    have free : '@' ∉ s.letters := s.free (by decide)
    simp [free]

theorem slashed_foldersText : Slashed r.foldersText := slashed_folders r.folders

theorem unsigned_foldersText : '@' ∉ r.foldersText := unsigned_folders r.folders

theorem name_eq : r.name = r.hostText ++ r.foldersText ++ r.leaf.letters := (List.append_assoc ..).symm

theorem stripTagDigest_name : stripTagDigest (r.name ++ r.tagText ++ r.digestText) = r.name := by
  rw [r.name_eq]
  refine stripTagDigest_parts (r.slashed_hostText.append r.slashed_foldersText) ?_ r.leaf_free r.tagText_free r.tagged r.digested
  exact List.not_mem_append r.unsigned_hostText r.unsigned_foldersText

/-- Only the tag and the digest are stripped. -/
theorem stripTagDigest_text : stripTagDigest r.text = r.schemeText ++ r.name := by
  have whole : r.text = r.schemeText ++ (r.hostText ++ r.foldersText) ++ r.leaf.letters ++ r.tagText ++ r.digestText := by
    rw [text, name_eq]
    simp only [List.append_assoc]
  rw [whole, stripTagDigest_parts (r.slashed_schemeText.append (r.slashed_hostText.append r.slashed_foldersText)) ?_
    r.leaf_free r.tagText_free r.tagged r.digested, name_eq, List.append_assoc]
  exact List.not_mem_append r.unsigned_schemeText (List.not_mem_append r.unsigned_hostText r.unsigned_foldersText)

/-- A path begins with a letter of its first component. -/
theorem path_begins (folders : List (Part isPathChar)) (leaf : Part isPathChar) :
    ∃ c rest, (folders.flatMap fun f => f.letters ++ ['/']) ++ leaf.letters = c :: rest ∧ c ≠ '/' := by
  have begins (part : Part isPathChar) (more : List Char) : ∃ c rest, part.letters ++ more = c :: rest ∧ c ≠ '/' := by
    obtain ⟨c, rest, same⟩ := List.exists_cons_of_ne_nil part.nonempty
    refine ⟨c, rest ++ more, by rw [same, List.cons_append], ?_⟩
    rintro rfl
    exact absurd (same ▸ List.mem_cons_self) (part.free (by decide))
  cases folders with
  | nil =>
    obtain ⟨c, rest, same, other⟩ := begins leaf []
    exact ⟨c, rest, by rwa [List.append_nil] at same, other⟩
  | cons f rest =>
    rw [List.flatMap_cons, List.append_assoc, List.append_assoc]
    exact begins f _

theorem name_ne_nil : r.name ≠ [] := by
  obtain ⟨c, rest, same, -⟩ := path_begins r.folders r.leaf
  rw [name, path, foldersText, same]
  simp

/-- The first component of a name, and what follows it, which begins with no other slash. -/
theorem name_split : '/' ∉ r.name ∧ r.host = none ∧ r.folders = [] ∨
    ∃ first c rest, r.name = first ++ '/' :: c :: rest ∧ '/' ∉ first ∧ c ≠ '/' ∧
      (∀ h, r.host = some h → first = h.letters ∧ c :: rest = r.path) ∧
      (r.host = none → ∃ f, r.folders.head? = some f ∧ first = f.letters) := by
  cases found : r.host with
  | some h =>
    obtain ⟨c, rest, same, other⟩ := path_begins r.folders r.leaf
    refine Or.inr ⟨h.letters, c, rest, ?_, h.free (by decide), other, fun h' same' => ?_, nofun⟩
    · rw [name, hostText, found, path, foldersText, same]
      simp
    · obtain rfl := Option.some.inj same'
      exact ⟨rfl, by rw [path, foldersText, same]⟩
  | none =>
    have plain : r.name = r.path := by
      rw [name, hostText, found]
      rfl
    cases some_ : r.folders with
    | nil =>
      refine Or.inl ⟨?_, rfl, rfl⟩
      rw [plain, path, foldersText, some_]
      exact r.leaf_free.1
    | cons f more =>
      obtain ⟨c, rest, same, other⟩ := path_begins more r.leaf
      refine Or.inr ⟨f.letters, c, rest, ?_, f.free (by decide), other, nofun, fun _ => ⟨f, rfl, rfl⟩⟩
      rw [plain, path, foldersText, some_, List.flatMap_cons, ← same]
      simp

/-! The scheme. -/

theorem known_iff {letters : List Char} :
    Known letters ↔ ∀ c ∈ letters, (('a' ≤ c && c ≤ 'z') || c == '-') = true := by
  refine forall₂_congr fun c _ => ?_
  simp [or_comm]

theorem Known.free {letters : List Char} (known : Known letters) {mark : Char} (other : mark ≠ '-')
    (outside : ¬('a' ≤ mark ∧ mark ≤ 'z')) : mark ∉ letters := by
  intro member
  rcases known mark member with same | inside
  · exact other same
  · exact outside inside

theorem dropTransport_known {letters : List Char} (some_ : letters ≠ []) (known : Known letters) (rest : List Char) :
    dropTransport (letters ++ "://".toList ++ rest) = rest := by
  have transport : (letters ++ "://".toList ++ rest).takeWhile (fun c => ('a' ≤ c && c ≤ 'z') || c == '-') = letters := by
    rw [List.append_assoc, List.takeWhile_append_of_pos (known_iff.mp known)]
    exact List.append_nil letters
  have dropped : (letters ++ "://".toList ++ rest).drop letters.length = ':' :: '/' :: '/' :: rest := by
    rw [List.append_assoc, List.drop_left]
    rfl
  obtain ⟨first, more, same⟩ := List.exists_cons_of_ne_nil some_
  simp only [dropTransport, transport, dropped]
  rw [same]
  rfl

/-- Nothing is dropped, or a known scheme. -/
theorem dropTransport_cases (text : List Char) : dropTransport text = text ∨
    ∃ letters rest, Known letters ∧ text = letters ++ "://".toList ++ rest := by
  simp only [dropTransport]
  split
  · rename_i rest taken dropped
    right
    have letters : Known (text.takeWhile fun c => ('a' ≤ c && c ≤ 'z') || c == '-') :=
      known_iff.mpr fun c member => @List.mem_takeWhile_imp _ _ _ c member
    refine ⟨_, rest, letters, ?_⟩
    have front := List.takeWhile_prefix (l := text) fun c => ('a' ≤ c && c ≤ 'z') || c == '-'
    have back := List.prefix_iff_eq_append.mp front
    rw [dropped] at back
    rw [List.append_assoc]
    exact back.symm
  · exact Or.inl rfl

theorem digestText_free : '/' ∉ r.digestText := by
  unfold digestText
  cases r.digest with
  | none => exact List.not_mem_nil
  | some d =>
    have slash : '/' ∉ d.letters := d.free (by decide)
    simp [slash]

theorem dropTransport_text (known : SchemeKnown r) : dropTransport r.text = r.name ++ r.tagText ++ r.digestText := by
  cases found : r.scheme with
  | some s =>
    have whole : r.text = s.letters ++ "://".toList ++ (r.name ++ r.tagText ++ r.digestText) := by
      rw [text, schemeText, found, Option.map_some, Option.getD_some]
      simp only [List.append_assoc]
    rw [whole]
    exact dropTransport_known s.nonempty (known s found) _
  | none =>
    have whole : r.text = r.name ++ r.tagText ++ r.digestText := by
      rw [text, schemeText, found]
      rfl
    rw [← whole]
    refine (dropTransport_cases r.text).resolve_right ?_
    rintro ⟨letters, rest, known, same⟩
    have free : '/' ∉ letters ++ [':'] := by simp [Known.free known (by decide : '/' ≠ '-') (by decide)]
    have split : r.text = (letters ++ [':']) ++ '/' :: '/' :: rest := by rw [same]; simp
    rcases r.name_split with ⟨unslashed, -, -⟩ | ⟨first, c, more, name, firstFree, other, -, -⟩
    · have none_ : '/' ∉ r.text := by
        rw [whole]
        exact List.not_mem_append (List.not_mem_append unslashed r.tagText_free.1) r.digestText_free
      exact none_ (split ▸ List.mem_append_right _ List.mem_cons_self)
    · have again : r.text = first ++ '/' :: c :: (more ++ r.tagText ++ r.digestText) := by
        rw [whole, name]
        simp
      have behind := congrArg (after '/') (split.symm.trans again)
      rw [after_mark free, after_mark firstFree] at behind
      exact other (List.cons.inj behind).1.symm

theorem dropTransport_unknown {s : Part isSchemeChar} (found : r.scheme = some s) (unknown : ¬Known s.letters) :
    dropTransport r.text = r.text := by
  refine (dropTransport_cases r.text).resolve_right ?_
  rintro ⟨letters, rest, known, same⟩
  have whole : r.text = s.letters ++ ':' :: '/' :: '/' :: (r.name ++ r.tagText ++ r.digestText) := by
    rw [text, schemeText, found, Option.map_some, Option.getD_some]
    simp
  have other : r.text = letters ++ ':' :: '/' :: '/' :: rest := by rw [same]; simp
  have front := congrArg (before ':') (other.symm.trans whole)
  rw [before_mark (Known.free known (by decide) (by decide)), before_mark (s.free (by decide))] at front
  exact unknown (front ▸ known)

/-! The host and the repository. -/

/-- What is made of a name. -/
def parseName (name : List Char) : Option (List Char × List Char) :=
  if name = [] ∨ "sha256".toList <+: name then none
  else
    let (host, repo) := RegistryLookup.hosted name
    if host = "docker.io".toList ∨ host = "index.docker.io".toList then
      some ("registry-1.docker.io".toList, if '/' ∈ repo then repo else "library/".toList ++ repo)
    else some (host, repo)

theorem parseName_none {name : List Char} (begins : "sha256".toList <+: name) : parseName name = none :=
  if_pos (Or.inr begins)

theorem parseName_some {name host repo : List Char} (some_ : name ≠ []) (other : ¬"sha256".toList <+: name)
    (hosted : RegistryLookup.hosted name = (host, repo)) :
    parseName name = if host = "docker.io".toList ∨ host = "index.docker.io".toList then
      some ("registry-1.docker.io".toList, if '/' ∈ repo then repo else "library/".toList ++ repo) else some (host, repo) := by
  rw [parseName, if_neg (not_or_intro some_ other), hosted]

theorem parseImageRef_text (known : SchemeKnown r) : parseImageRef r.text = parseName r.name := by
  have parse : parseImageRef r.text = parseName (stripTagDigest (dropTransport r.text)) := rfl
  rw [parse, r.dropTransport_text known, r.stripTagDigest_name]

theorem hosted_of_host {host repo : List Char} (free : '/' ∉ host) (some_ : repo ≠ []) :
    RegistryLookup.hosted (host ++ '/' :: repo) =
      if '.' ∈ host ∨ ':' ∈ host ∨ host = "localhost".toList then (host, repo) else ("docker.io".toList, host ++ '/' :: repo) := by
  simp only [RegistryLookup.hosted, before_mark free, after_mark free, ne_eq, some_, not_false_eq_true, true_and]

theorem slash_mem_path_iff : '/' ∈ r.path ↔ r.folders ≠ [] := by
  rw [path, foldersText]
  cases r.folders with
  | nil => simp [r.leaf_free.1]
  | cons f rest => simp

theorem library_eq : (if '/' ∈ r.path then r.path else "library/".toList ++ r.path) = r.library := by
  unfold library
  by_cases none_ : r.folders = []
  · rw [if_neg (mt r.slash_mem_path_iff.mp (not_not_intro none_)), none_]
    rfl
  · rw [if_pos (r.slash_mem_path_iff.mpr none_), if_neg (by simpa using none_)]

theorem name_of_host {h : Part isHostChar} (found : r.host = some h) : r.name = h.letters ++ '/' :: r.path := by
  rw [name, hostText, found, Option.map_some, Option.getD_some, List.append_assoc]
  rfl

theorem name_of_unhosted (found : r.host = none) : r.name = r.path := by
  rw [name, hostText, found]
  rfl

theorem path_ne_nil : r.path ≠ [] := by
  obtain ⟨c, rest, same, -⟩ := path_begins r.folders r.leaf
  rw [path, foldersText, same]
  exact List.cons_ne_nil c rest

theorem hosted_unhosted (found : r.host = none) : RegistryLookup.hosted r.name = ("docker.io".toList, r.path) := by
  rw [r.name_of_unhosted found]
  rcases r.name_split with ⟨unslashed, -, none_⟩ | ⟨first, c, rest, split, free, -, -, firsts⟩
  · rw [r.name_of_unhosted found] at unslashed
    have nothing : after '/' r.path = [] := by
      have skipped : r.path.dropWhile (· != '/') = [] :=
        List.dropWhile_eq_nil_iff.mpr fun c member => by simpa using ne_of_mem_of_not_mem member unslashed
      rw [after, skipped, List.tail_nil]
    simp only [RegistryLookup.hosted, nothing, ne_eq, not_true_eq_false, false_and, if_false]
  · obtain ⟨f, head, rfl⟩ := firsts found
    have plain := r.unhosted found f head
    simp only [isDomain, Bool.or_eq_false_iff, List.contains_eq_mem, decide_eq_false_iff_not, beq_eq_false_iff_ne] at plain
    obtain ⟨⟨⟨dot, colon⟩, localhost⟩, -⟩ := plain
    rw [r.name_of_unhosted found] at split
    rw [split, hosted_of_host free (List.cons_ne_nil c rest), if_neg]
    exact not_or_intro dot (not_or_intro colon localhost)

theorem parseName_regular (known : HostKnown r) (other : ¬"sha256".toList <+: r.name) : parseName r.name = some r.registry := by
  cases found : r.host with
  | none =>
    rw [parseName_some r.name_ne_nil other (r.hosted_unhosted found), if_pos (Or.inl rfl), library_eq, registry, found]
  | some h =>
    have hosted : RegistryLookup.hosted r.name = (h.letters, r.path) := by
      rw [r.name_of_host found, hosted_of_host (h.free (by decide)) r.path_ne_nil, if_pos (known h found)]
    rw [parseName_some r.name_ne_nil other hosted, library_eq, registry, found]
    exact (apply_ite some _ _ _).symm

/-- A host that could also be a folder is taken for one. -/
theorem parseName_host_unknown (unknown : ¬HostKnown r) (other : ¬"sha256".toList <+: r.name) :
    parseName r.name ≠ some r.registry := by
  have known : ∃ h, r.host = some h ∧ ¬('.' ∈ h.letters ∨ ':' ∈ h.letters ∨ h.letters = "localhost".toList) := by
    by_contra none_
    exact unknown fun h found => by_contra fun plain => none_ ⟨h, found, plain⟩
  obtain ⟨h, found, plain⟩ := known
  have hosted : RegistryLookup.hosted r.name = ("docker.io".toList, r.name) := by
    rw [r.name_of_host found, hosted_of_host (h.free (by decide)) r.path_ne_nil, if_neg plain]
  have apart {host : List Char} (dotted : '.' ∈ host) : h.letters ≠ host := by
    rintro rfl
    exact plain (Or.inl dotted)
  rw [parseName_some r.name_ne_nil other hosted, if_pos (Or.inl rfl), registry, found]
  dsimp only
  rw [if_neg (not_or_intro (apart (by decide)) (apart (by decide)))]
  have hub : '.' ∈ "registry-1.docker.io".toList := by decide
  intro same
  exact apart hub (congrArg Prod.fst (Option.some.inj same)).symm

/-! An unknown scheme. -/

theorem parse_unknown {s : Part isSchemeChar} (found : r.scheme = some s) (unknown : ¬Known s.letters) :
    parseImageRef r.text = if "sha256".toList <+: s.letters then none else some (s.letters ++ [':'], '/' :: r.name) := by
  have whole : r.schemeText ++ r.name = (s.letters ++ [':']) ++ '/' :: '/' :: r.name := by
    rw [schemeText, found, Option.map_some, Option.getD_some]
    simp
  have parse : parseImageRef r.text = parseName (stripTagDigest (dropTransport r.text)) := rfl
  have free : '/' ∉ s.letters ++ [':'] := by
    have slash : '/' ∉ s.letters := s.free (by decide)
    simp [slash]
  have colon : ':' ∈ s.letters ++ [':'] := by simp
  have hosted : RegistryLookup.hosted (r.schemeText ++ r.name) = (s.letters ++ [':'], '/' :: r.name) := by
    rw [whole, hosted_of_host free (List.cons_ne_nil _ _), if_pos (Or.inr (Or.inl colon))]
  have begins : "sha256".toList <+: r.schemeText ++ r.name ↔ "sha256".toList <+: s.letters := by
    rw [whole, List.append_assoc]
    refine ⟨fun front => ?_, fun front => front.trans (List.prefix_append _ _)⟩
    rcases Nat.lt_or_ge s.letters.length "sha256".toList.length with short | long
    · have shorter : s.letters ++ [':'] <+: "sha256".toList := by
        have front' : s.letters ++ [':'] <+: s.letters ++ ([':'] ++ '/' :: '/' :: r.name) := by
          rw [← List.append_assoc]
          exact List.prefix_append _ _
        exact List.prefix_of_prefix_length_le front' front (by simp at short ⊢; omega)
      have inside := shorter.mem colon
      exact absurd inside (by decide)
    · exact List.prefix_of_prefix_length_le front (List.prefix_append _ _) long
  rw [parse, r.dropTransport_unknown found unknown, r.stripTagDigest_text]
  by_cases digest : "sha256".toList <+: s.letters
  · rw [if_pos digest, parseName_none (begins.mpr digest)]
  · have apart {host : List Char} (plain : ':' ∉ host) : s.letters ++ [':'] ≠ host := by
      rintro rfl
      exact plain colon
    rw [if_neg digest, parseName_some (by simp [whole]) (mt begins.mp digest) hosted,
      if_neg (not_or_intro (apart (by decide)) (apart (by decide)))]

/-- The registry's repository begins with no slash. -/
theorem registry_ne (host : List Char) (rest : List Char) : r.registry ≠ (host, '/' :: rest) := by
  have path (more : List Char) : r.path ≠ '/' :: more := by
    obtain ⟨c, others, same, other⟩ := path_begins r.folders r.leaf
    rw [Reference.path, foldersText, same]
    exact fun clash => other (List.cons.inj clash).1
  have library (more : List Char) : r.library ≠ '/' :: more := by
    unfold Reference.library
    split
    · intro clash
      cases clash
    · exact path more
  unfold registry
  split
  · exact fun clash => library rest (congrArg Prod.snd clash)
  · split
    · exact fun clash => library rest (congrArg Prod.snd clash)
    · exact fun clash => path rest (congrArg Prod.snd clash)

theorem BareDigest.begins {r : Reference} (bare : r.BareDigest) : r.name = "sha256".toList := by
  obtain ⟨unhosted, none_, leaf, -, -⟩ := bare
  rw [r.name_of_unhosted unhosted, path, foldersText, none_, leaf]
  rfl

end Reference

/-- Stripping is idempotent and leaves neither a tag nor a digest; and a reference is parsed by its grammar
exactly when it is a regular one. -/
theorem parsed_iff_regular (r : Reference) : (∀ text, stripTagDigest (stripTagDigest text) = stripTagDigest text) ∧
    parseImageRef [] = none ∧ (Parsed r ↔ Regular r) := by
  refine ⟨stripTagDigest_idempotent, by decide, ?_⟩
  have parsed : Parsed r ↔ parseImageRef r.text = if r.BareDigest then none else some r.registry :=
    ⟨Parsed.parse, fun parse => ⟨parse, r.stripTagDigest_text⟩⟩
  rw [parsed, Regular]
  by_cases known : SchemeKnown r
  · rw [r.parseImageRef_text known]
    by_cases bare : r.BareDigest
    · have begins : "sha256".toList <+: r.name := bare.begins ▸ List.prefix_refl _
      simp only [if_pos bare, Reference.parseName_none begins, known, true_or]
    · simp only [if_neg bare, known, true_and]
      by_cases digest : "sha256".toList <+: r.name
      · rw [Reference.parseName_none digest]
        exact ⟨nofun, fun both => absurd digest both.2⟩
      · by_cases host : HostKnown r
        · exact ⟨fun _ => ⟨host, digest⟩, fun _ => r.parseName_regular host digest⟩
        · exact ⟨fun same => absurd same (r.parseName_host_unknown host digest), fun both => absurd both.1 host⟩
  · obtain ⟨s, found, unknown⟩ : ∃ s, r.scheme = some s ∧ ¬Known s.letters := by
      by_contra none_
      exact known fun s found => by_contra fun unknown => none_ ⟨s, found, unknown⟩
    rw [r.parse_unknown found unknown]
    by_cases bare : r.BareDigest
    · simp only [if_pos bare, known, false_or]
      by_cases digest : "sha256".toList <+: s.letters
      · rw [if_pos digest]
        exact ⟨fun _ => ⟨s, found, digest⟩, fun _ => rfl⟩
      · rw [if_neg digest]
        refine ⟨nofun, fun ⟨other, same, begins⟩ => ?_⟩
        obtain rfl := Option.some.inj (found.symm.trans same)
        exact absurd begins digest
    · simp only [if_neg bare, known, false_and, iff_false]
      split
      · exact nofun
      · exact fun same => r.registry_ne _ _ (Option.some.inj same).symm

/-- An image whose name begins like a digest. -/
def sha256sum : Reference where
  scheme := none
  host := none
  folders := []
  leaf := ⟨"sha256sum".toList, List.cons_ne_nil _ _, List.all_eq_true.mp (by decide)⟩
  tag := some ⟨"1.0".toList, List.cons_ne_nil _ _, List.all_eq_true.mp (by decide)⟩
  digest := none
  hosted := nofun
  unhosted := fun _ _ head => nomatch head

theorem sha256sum_not_parsed : ¬∀ r : Reference, Parsed r := by
  intro all
  have parse := (all sha256sum).parse
  have refused : parseImageRef sha256sum.text = none := by decide
  have image : ¬sha256sum.BareDigest := by decide
  rw [refused, if_neg image] at parse
  cases parse

end AibomWebhook.ImageReference
