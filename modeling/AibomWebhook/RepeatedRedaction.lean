import AibomWebhook.GitUrl

/-! A recorded URL that is recorded again. -/

namespace AibomWebhook.GitUrl

open PyUrl

section
variable (nfkc : List Char → List Char)

/-- The netloc that is recorded for a netloc. -/
def recordedNetloc (scheme netloc : List Char) : List Char :=
  if '@' ∈ netloc then
    let userinfo := beforeLast '@' netloc
    let hostport := afterLast '@' netloc
    let user := before ':' userinfo
    if scheme.map Char.toLower ∈ webSchemes then hostport
    else if user ≠ [] then user ++ '@' :: hostport else hostport
  else netloc

/-- Another reading of an authority leaves it as it is: what it has in front of the host is a user name alone. -/
def Lasting (scheme authority : List Char) : Prop :=
  '@' ∈ authority → scheme ∉ webSchemes ∧ beforeLast '@' authority ≠ [] ∧ ':' ∉ beforeLast '@' authority ∧
    isNetloc nfkc authority = true

/-- The marks that begin a tail. -/
def isTailMark (c : Char) : Bool := c == '?' || c == '#'

/-- The last line is a tail, and so is the end of the line before it: once the one is dropped, the other is the last. -/
structure Relapse (kept text : List Char) : Prop where
  last : ∃ c rest, text = kept ++ '\n' :: c :: rest ∧ isTailMark c = true ∧ '\n' ∉ rest
  line : ∃ front c rest, kept = front ++ c :: rest ∧ isTailMark c = true ∧ '\n' ∉ rest

/-- What stands in front of `://`. -/
def schemeText (url : List Char) : List Char := url.takeWhile fun c => c != ':' && c != '/'

/-- What stands between `://` and the path, the query or the fragment. -/
def hostText (url : List Char) : List Char :=
  (url.drop ((schemeText url).length + 3)).takeWhile fun c => !endsNetloc c

/-- A URL as the split writes it, but for the tail. -/
structure Plain (url : List Char) : Prop where
  scheme : schemeText url = (schemeName (schemeText url)).map Char.toLower
  line : '\n' ∉ url
  safe : ∀ c ∈ url.takeWhile (fun c => !isTailMark c), isUnsafe c = false

/-- When the record of a string is recorded as itself. -/
def Settled (url : List Char) : Prop :=
  "://".toList <:+: url →
  match urlsplit nfkc url with
  | some parts =>
    parts.scheme ≠ [] ∧
      if parts.netloc = [] then Lasting nfkc parts.scheme (before '/' parts.path)
      else
        let user := before ':' (beforeLast '@' parts.netloc)
        '@' ∈ parts.netloc → parts.scheme ∉ webSchemes → user ≠ [] →
          isNetloc nfkc (user ++ '@' :: afterLast '@' parts.netloc) = true
  | none =>
    let bare := dropUserinfo url
    if bare ≠ url ∧ isNetloc nfkc (clean (hostText bare)) then Plain bare
    else ∀ kept, Relapse kept bare → ¬ "://".toList <:+: kept

end

/-! Dropping a tail twice. -/

theorem dropTail_cons (c : Char) (rest : List Char) : dropTail (c :: rest) =
    if isTailMark c ∧ (rest.dropWhile (· != '\n') = [] ∨ rest.dropWhile (· != '\n') = ['\n'])
      then rest.dropWhile (· != '\n') else c :: dropTail rest := by
  simp [dropTail, isTailMark]

/-- A line with a longer text below it keeps its marks. -/
theorem dropTail_above (kept : List Char) {below : List Char} (more : below ≠ []) :
    dropTail (kept ++ '\n' :: below) = kept ++ '\n' :: dropTail below := by
  induction kept with
  | nil => simp [dropTail_cons, isTailMark]
  | cons c rest ih =>
    have long : 2 ≤ ((rest ++ '\n' :: below).dropWhile (· != '\n')).length := by
      have two : 2 ≤ ('\n' :: below).length := by
        have := List.length_pos_iff.mpr more
        simp only [List.length_cons]
        omega
      rw [List.dropWhile_append]
      split
      · simpa using two
      · rw [List.length_append]
        omega
    rw [List.cons_append, dropTail_cons, if_neg, ih, List.cons_append]
    rintro ⟨-, empty | single⟩
    · rw [empty] at long
      exact absurd long (by simp)
    · rw [single] at long
      exact absurd long (by simp)

theorem dropTail_eq_nil {text : List Char} (some' : text ≠ []) :
    dropTail text = [] ↔ ∃ c rest, text = c :: rest ∧ isTailMark c = true ∧ '\n' ∉ rest := by
  cases text with
  | nil => exact absurd rfl some'
  | cons c rest =>
    have single : rest.dropWhile (· != '\n') = [] ↔ '\n' ∉ rest := by
      rw [List.dropWhile_eq_nil_iff]
      constructor
      · intro other inside
        simpa using other '\n' inside
      · intro free d inside
        simpa using ne_of_mem_of_not_mem inside free
    rw [dropTail_cons]
    constructor
    · intro dropped
      split at dropped
      · rename_i marked
        exact ⟨c, rest, rfl, marked.1, single.mp dropped⟩
      · exact absurd dropped (by simp)
    · rintro ⟨d, more, same, mark, free⟩
      obtain ⟨rfl, rfl⟩ := List.cons.inj same
      rw [if_pos ⟨mark, Or.inl (single.mpr free)⟩]
      exact single.mpr free

theorem Relapse.dropTail {kept text : List Char} (relapse : Relapse kept text) : dropTail text = kept ++ ['\n'] := by
  obtain ⟨c, rest, rfl, mark, free⟩ := relapse.last
  rw [dropTail_above kept (by simp), (dropTail_eq_nil (by simp)).mpr ⟨c, rest, rfl, mark, free⟩]

theorem Relapse.changes {kept text : List Char} (relapse : Relapse kept text) :
    GitUrl.dropTail (GitUrl.dropTail text) ≠ GitUrl.dropTail text := by
  rw [relapse.dropTail]
  obtain ⟨front, c, rest, rfl, mark, free⟩ := relapse.line
  have left : (rest ++ ['\n']).dropWhile (· != '\n') = ['\n'] := by
    rw [List.dropWhile_append_of_pos fun d inside => by simpa using ne_of_mem_of_not_mem inside free]
    rfl
  have shorter (front : List Char) : (GitUrl.dropTail (front ++ c :: (rest ++ ['\n']))).length <
      (front ++ c :: (rest ++ ['\n'])).length := by
    induction front with
    | nil =>
      rw [List.nil_append, dropTail_cons, if_pos ⟨mark, Or.inr left⟩, left]
      simp
    | cons d more ih =>
      rw [List.cons_append, dropTail_cons]
      split
      · have bound := (List.dropWhile_sublist (p := (· != '\n')) (l := more ++ c :: (rest ++ ['\n']))).length_le
        simp only [List.length_cons]
        omega
      · simp only [List.length_cons]
        omega
  intro same
  have less := shorter front
  rw [List.append_assoc, List.cons_append] at same
  rw [same] at less
  exact absurd less (lt_irrefl _)

theorem relapse_of_changes {text : List Char} (changes : dropTail (dropTail text) ≠ dropTail text) :
    ∃ kept, Relapse kept text := by
  induction text with
  | nil => exact absurd rfl changes
  | cons c rest ih =>
    rw [dropTail_cons] at changes
    split at changes
    · rename_i marked
      rcases marked.2 with empty | single
      · rw [empty] at changes
        exact absurd rfl changes
      · rw [single] at changes
        exact absurd rfl changes
    · rename_i unmarked
      by_cases again : dropTail (dropTail rest) = dropTail rest
      · rw [dropTail_cons, again] at changes
        split at changes
        · rename_i marked
          -- the mark is one of a last line only once the line below it is dropped
          rcases line : rest.dropWhile (· != '\n') with _ | ⟨d, below⟩
          · exact absurd ⟨marked.1, Or.inl line⟩ unmarked
          · have newline : d = '\n' := by
              have stops := List.head?_dropWhile_not (· != '\n') rest
              rw [line] at stops
              simpa using stops
            subst newline
            have more : below ≠ [] := by
              rintro rfl
              exact unmarked ⟨marked.1, Or.inr line⟩
            have whole : rest.takeWhile (· != '\n') ++ '\n' :: below = rest := by
              rw [← line]
              exact List.takeWhile_append_dropWhile
            have free : '\n' ∉ rest.takeWhile (· != '\n') := by
              intro inside
              simpa using List.mem_takeWhile_imp inside
            have left : (dropTail rest).dropWhile (· != '\n') = '\n' :: dropTail below := by
              rw [← whole, dropTail_above _ more,
                List.dropWhile_append_of_pos fun e inside => by simpa using ne_of_mem_of_not_mem inside free]
              rfl
            have gone : dropTail below = [] := by
              rcases marked.2 with empty | single
              · rw [left] at empty
                exact absurd empty (by simp)
              · rw [left] at single
                simpa using single
            obtain ⟨e, tail, rfl, mark, short⟩ := (dropTail_eq_nil more).mp gone
            exact ⟨c :: rest.takeWhile (· != '\n'), ⟨e, tail, by rw [List.cons_append, whole], mark, short⟩,
              [], c, rest.takeWhile (· != '\n'), rfl, marked.1, free⟩
        · exact absurd rfl changes
      · obtain ⟨kept, ⟨d, tail, same, mark, short⟩, front, e, line, same', mark', free⟩ := ih again
        exact ⟨c :: kept, ⟨d, tail, by rw [same, List.cons_append], mark, short⟩,
          c :: front, e, line, by rw [same', List.cons_append], mark', free⟩

/-! What is read of a URL that was written. -/

section
variable {nfkc : List Char → List Char} {text : List Char} {parts : SplitResult}

theorem redactGitUrl_some (marked : "://".toList <:+: text) (split : urlsplit nfkc text = some parts) :
    redactGitUrl nfkc text =
      parts.scheme ++ "://".toList ++ recordedNetloc parts.scheme parts.netloc ++ parts.path := by
  unfold redactGitUrl
  rw [if_neg (not_not_intro marked), split]
  rfl

theorem redactGitUrl_none (marked : "://".toList <:+: text) (raises : urlsplit nfkc text = none) :
    redactGitUrl nfkc text = dropTail (dropUserinfo text) := by
  unfold redactGitUrl
  rw [if_neg (not_not_intro marked), raises]

end

theorem before_whole {mark : Char} {text : List Char} (free : mark ∉ text) : before mark text = text := by
  rw [before, List.takeWhile_eq_self_iff]
  intro c inside
  simpa using ne_of_mem_of_not_mem inside free

/-- What the split writes. -/
structure Written where
  scheme : List Char
  authority : List Char
  path : List Char
  named : isScheme scheme = true
  lower : scheme.map Char.toLower = scheme
  whole : ∀ c ∈ authority, endsNetloc c = false ∧ isUnsafe c = false
  begins : ∀ c ∈ path.head?, c = '/'
  pathWhole : ∀ c ∈ path, c ≠ '?' ∧ c ≠ '#' ∧ isUnsafe c = false

def Written.url (written : Written) : List Char :=
  written.scheme ++ ':' :: '/' :: '/' :: (written.authority ++ written.path)

theorem dropUserinfo_named {scheme rest : List Char} (some' : scheme ≠ []) (unmarked : ':' ∉ scheme)
    (unslashed : '/' ∉ scheme) : dropUserinfo (scheme ++ ':' :: '/' :: '/' :: rest) =
      if '@' ∈ before '/' rest then
        scheme ++ ':' :: '/' :: '/' :: (afterLast '@' (before '/' rest) ++ rest.dropWhile (· != '/'))
      else scheme ++ ':' :: '/' :: '/' :: rest := by
  have taken : (scheme ++ ':' :: '/' :: '/' :: rest).takeWhile (fun c => c != ':' && c != '/') = scheme := by
    rw [List.takeWhile_append_of_pos]
    · simp
    · intro c inside
      simp [ne_of_mem_of_not_mem inside unmarked, ne_of_mem_of_not_mem inside unslashed]
  unfold dropUserinfo
  simp only [taken, List.drop_left]
  cases scheme with
  | nil => exact absurd rfl some'
  | cons c more => simp

theorem before_head {authority path : List Char} (whole : '/' ∉ authority) (begins : ∀ c ∈ path.head?, c = '/') :
    before '/' (authority ++ path) = authority ∧ (authority ++ path).dropWhile (· != '/') = path := by
  have other : ∀ c ∈ authority, (c != '/') = true := fun c inside => by simpa using ne_of_mem_of_not_mem inside whole
  rw [before, List.takeWhile_append_of_pos other, List.dropWhile_append_of_pos other]
  cases path with
  | nil => simp
  | cons c more => simp [begins c rfl]

namespace Written

variable (written : Written)

theorem unmarked : ':' ∉ written.scheme := not_mem_of_isScheme written.named (by decide)

theorem unslashed : '/' ∉ written.scheme := not_mem_of_isScheme written.named (by decide)

theorem some' : written.scheme ≠ [] := by
  intro empty
  have named := written.named
  rw [empty] at named
  exact absurd named (by decide)

theorem authority_unslashed : '/' ∉ written.authority := fun inside => absurd (written.whole _ inside).1 (by decide)

theorem marked : "://".toList <:+: written.url :=
  ⟨written.scheme, written.authority ++ written.path, by simp [Written.url]⟩

/-- Another reading finds the parts that were written, if it takes the authority. -/
theorem urlsplit_url (nfkc : List Char → List Char) : urlsplit nfkc written.url =
    if isNetloc nfkc written.authority then some (splitRest written.scheme written.authority written.path) else none := by
  have named := schemeName_of_isScheme written.named
  have authority : clean written.authority = written.authority := clean_eq_self.mpr fun c inside => (written.whole c inside).2
  have path : clean written.path = written.path := clean_eq_self.mpr fun c inside => (written.pathWhole c inside).2.2
  have begins : ∀ c ∈ written.path.head?, endsNetloc c = true := by
    intro c first
    rw [written.begins c first]
    decide
  have scheme : isScheme (schemeName written.scheme) = true := by rw [named, written.named]
  have split := urlsplit_named nfkc written.unmarked scheme (fun c inside => (written.whole c inside).1) begins
  rw [named, authority, path, written.lower] at split
  exact split

theorem path_url (scheme netloc : List Char) : (splitRest scheme netloc written.path).path = written.path := by
  have path : (splitRest scheme netloc (written.path ++ [])).path = written.path := splitRest_path scheme netloc
    (fun c inside => ⟨(written.pathWhole c inside).1, (written.pathWhole c inside).2.1⟩) (by simp)
  rwa [List.append_nil] at path

/-- What a record of what was written differs in is the authority. -/
theorem redact_url (nfkc : List Char → List Char) : redactGitUrl nfkc written.url =
    written.scheme ++ ':' :: '/' :: '/' ::
      ((if isNetloc nfkc written.authority then recordedNetloc written.scheme written.authority
        else if '@' ∈ written.authority then afterLast '@' written.authority else written.authority) ++ written.path) := by
  by_cases valid : isNetloc nfkc written.authority = true
  · have split : urlsplit nfkc written.url = some (splitRest written.scheme written.authority written.path) := by
      rw [written.urlsplit_url, if_pos valid]
    rw [redactGitUrl_some written.marked split, written.path_url, if_pos valid]
    simp [splitRest]
  · have raises : urlsplit nfkc written.url = none := by rw [written.urlsplit_url, if_neg valid]
    have parted := before_head written.authority_unslashed written.begins
    have kept {authority : List Char} (sub : ∀ c ∈ authority, c ∈ written.authority) :
        dropTail (written.scheme ++ ':' :: '/' :: '/' :: (authority ++ written.path)) =
          written.scheme ++ ':' :: '/' :: '/' :: (authority ++ written.path) := by
      have whole : ∀ c ∈ written.scheme ++ ':' :: '/' :: '/' :: (authority ++ written.path), c ≠ '?' ∧ c ≠ '#' := by
        intro c inside
        simp only [List.mem_append, List.mem_cons] at inside
        rcases inside with scheme | rfl | rfl | rfl | mem | path
        · refine ⟨?_, ?_⟩ <;> rintro rfl <;> exact not_mem_of_isScheme written.named (by decide) scheme
        · decide
        · decide
        · decide
        · exact not_tail_mark (written.whole c (sub c mem)).1
        · exact ⟨(written.pathWhole c path).1, (written.pathWhole c path).2.1⟩
      have all : dropTail (_ ++ []) = _ ++ dropTail [] := dropTail_append whole
      rwa [List.append_nil, dropTail, List.append_nil] at all
    rw [redactGitUrl_none written.marked raises, if_neg valid, Written.url,
      dropUserinfo_named written.some' written.unmarked written.unslashed, parted.1, parted.2]
    split
    · rename_i marked
      refine kept fun c inside => ?_
      rw [← (beforeLast_afterLast marked).1]
      simp [inside]
    · exact kept fun c inside => inside

/-- What was written is recorded as itself exactly if its authority lasts. -/
theorem redact_url_iff (nfkc : List Char → List Char) :
    redactGitUrl nfkc written.url = written.url ↔ Lasting nfkc written.scheme written.authority := by
  rw [written.redact_url, Written.url, List.append_cancel_left_eq]
  simp only [List.cons.injEq, true_and, List.append_cancel_right_eq]
  by_cases marked : '@' ∈ written.authority
  · obtain ⟨whole, free⟩ := beforeLast_afterLast marked
    have shorter : afterLast '@' written.authority ≠ written.authority := by
      intro same
      rw [← same] at marked
      exact free (same ▸ marked)
    rw [if_pos marked, Lasting, recordedNetloc, if_pos marked, written.lower]
    by_cases valid : isNetloc nfkc written.authority = true
    · rw [if_pos valid]
      by_cases web : written.scheme ∈ webSchemes
      · simp [web, shorter, marked]
      · simp only [if_neg web]
        by_cases user : before ':' (beforeLast '@' written.authority) = []
        · rw [if_neg (not_not_intro user)]
          refine iff_of_false shorter fun lasting => ?_
          obtain ⟨-, named, free', -⟩ := lasting marked
          rw [before_whole free'] at user
          exact named user
        · rw [if_pos user]
          constructor
          · intro same _
            have alone : before ':' (beforeLast '@' written.authority) = beforeLast '@' written.authority :=
              List.append_cancel_right (same.trans whole.symm)
            refine ⟨web, alone ▸ user, ?_, valid⟩
            rw [← alone]
            intro inside
            simpa using List.mem_takeWhile_imp inside
          · intro lasting
            rw [before_whole (lasting marked).2.2.1, whole]
    · rw [if_neg valid]
      exact iff_of_false shorter fun lasting => valid (lasting marked).2.2.2
  · rw [if_neg marked, recordedNetloc, if_neg marked]
    simp [Lasting, marked]

end Written

/-! What the split took apart. -/

section
variable {nfkc : List Char → List Char} {text : List Char} {parts : SplitResult}

theorem mem_recordedNetloc {scheme netloc : List Char} {c : Char} (inside : c ∈ recordedNetloc scheme netloc) :
    c ∈ netloc := by
  unfold recordedNetloc at inside
  split at inside
  · rename_i marked
    have whole := (beforeLast_afterLast marked).1
    have host (mem : c ∈ afterLast '@' netloc) : c ∈ netloc := by
      rw [← whole]
      simp [mem]
    have user (mem : c ∈ before ':' (beforeLast '@' netloc)) : c ∈ netloc := by
      rw [← whole]
      exact List.mem_append_left _ ((List.takeWhile_sublist _).subset mem)
    simp only at inside
    split at inside
    · exact host inside
    · split at inside
      · simp only [List.mem_append, List.mem_cons] at inside
        rcases inside with mem | rfl | mem
        · exact user mem
        · exact marked
        · exact host mem
      · exact host inside
  · exact inside

/-- A netloc that is recorded with a user name lasts as long as it is one. -/
theorem lasting_recorded {scheme netloc : List Char} (lower : scheme.map Char.toLower = scheme) :
    Lasting nfkc scheme (recordedNetloc scheme netloc) ↔
      ('@' ∈ netloc → scheme ∉ webSchemes → before ':' (beforeLast '@' netloc) ≠ [] →
        isNetloc nfkc (before ':' (beforeLast '@' netloc) ++ '@' :: afterLast '@' netloc) = true) := by
  by_cases marked : '@' ∈ netloc
  · have free := (beforeLast_afterLast marked).2
    rw [recordedNetloc, if_pos marked, lower]
    by_cases web : scheme ∈ webSchemes
    · simp [web, Lasting, free]
    · simp only [if_neg web]
      by_cases user : before ':' (beforeLast '@' netloc) = []
      · simp [user, Lasting, free]
      · have alone : ':' ∉ before ':' (beforeLast '@' netloc) := by
          intro inside
          simpa using List.mem_takeWhile_imp inside
        rw [if_pos user, Lasting, beforeLast_mark free]
        simp [marked, web, user, alone]
  · rw [recordedNetloc, if_neg marked]
    simp [marked, Lasting]

/-- Without a scheme each record is longer than what it is of. -/
theorem unnamed_grows (marked : "://".toList <:+: text) (split : urlsplit nfkc text = some parts)
    (unnamed : parts.scheme = []) : redactGitUrl nfkc (redactGitUrl nfkc text) ≠ redactGitUrl nfkc text := by
  have record := redactGitUrl_some marked split
  generalize shown : recordedNetloc parts.scheme parts.netloc ++ parts.path = rest at record
  have whole : ∀ c ∈ rest, c ≠ '?' ∧ c ≠ '#' ∧ isUnsafe c = false := by
    intro c inside
    rw [← shown, List.mem_append] at inside
    rcases inside with netloc | path
    · obtain ⟨kept, safe⟩ := urlsplit_netloc split c (mem_recordedNetloc netloc)
      exact ⟨(not_tail_mark kept).1, (not_tail_mark kept).2, safe⟩
    · exact (urlsplit_path split).1 c path
  have record' : redactGitUrl nfkc text = ':' :: '/' :: '/' :: rest := by
    rw [record, List.append_assoc, shown, unnamed]
    rfl
  have safe : clean ('/' :: '/' :: rest) = '/' :: '/' :: rest := by
    rw [clean_eq_self]
    intro c inside
    simp only [List.mem_cons] at inside
    rcases inside with rfl | rfl | mem
    · decide
    · decide
    · exact (whole c mem).2.2
  have again : urlsplit nfkc (':' :: '/' :: '/' :: rest) = some (splitRest [] [] (':' :: '/' :: '/' :: rest)) := by
    have split : urlsplit nfkc ([] ++ ':' :: ('/' :: '/' :: rest)) = _ :=
      urlsplit_unnamed nfkc List.not_mem_nil List.not_mem_nil (by decide)
    rw [safe] at split
    exact split
  have path : (splitRest [] [] (':' :: '/' :: '/' :: rest ++ [])).path = ':' :: '/' :: '/' :: rest := by
    refine splitRest_path [] [] (fun c inside => ?_) (by simp)
    simp only [List.mem_cons] at inside
    rcases inside with rfl | rfl | rfl | mem
    · decide
    · decide
    · decide
    · exact ⟨(whole c mem).1, (whole c mem).2.1⟩
  rw [List.append_nil] at path
  have marked' : "://".toList <:+: ':' :: '/' :: '/' :: rest := ⟨[], rest, rfl⟩
  rw [record', redactGitUrl_some marked' again, path]
  intro same
  have long := congrArg List.length same
  simp only [List.length_append, List.length_cons] at long
  have mark : "://".toList.length = 3 := rfl
  omega

theorem settled_some (marked : "://".toList <:+: text) (split : urlsplit nfkc text = some parts) :
    redactGitUrl nfkc (redactGitUrl nfkc text) = redactGitUrl nfkc text ↔
      (parts.scheme ≠ [] ∧
        if parts.netloc = [] then Lasting nfkc parts.scheme (before '/' parts.path)
        else '@' ∈ parts.netloc → parts.scheme ∉ webSchemes → before ':' (beforeLast '@' parts.netloc) ≠ [] →
          isNetloc nfkc (before ':' (beforeLast '@' parts.netloc) ++ '@' :: afterLast '@' parts.netloc) = true) := by
  by_cases schemed : parts.scheme = []
  · exact iff_of_false (unnamed_grows marked split schemed) fun settled => settled.1 schemed
  · obtain ⟨named, lower⟩ := urlsplit_scheme split schemed
    have path := urlsplit_path split
    by_cases hosted : parts.netloc = []
    · have starts : before '/' parts.path ++ parts.path.dropWhile (· != '/') = parts.path :=
        List.takeWhile_append_dropWhile
      have inside {c : Char} (mem : c ∈ before '/' parts.path) : c ∈ parts.path := (List.takeWhile_sublist _).subset mem
      let written : Written := {
        scheme := parts.scheme
        authority := before '/' parts.path
        path := parts.path.dropWhile (· != '/')
        named, lower
        whole := by
          intro c mem
          obtain ⟨unmarked, unnumbered, safe⟩ := path.1 c (inside mem)
          have unslashed : c ≠ '/' := by simpa using List.mem_takeWhile_imp mem
          exact ⟨by simp [endsNetloc, unmarked, unnumbered, unslashed], safe⟩
        begins := by
          intro c first
          have stops := List.head?_dropWhile_not (· != '/') parts.path
          rw [Option.mem_def] at first
          rw [first] at stops
          simpa using stops
        pathWhole := fun c mem => path.1 c ((List.dropWhile_sublist _).subset mem) }
      have record : redactGitUrl nfkc text = written.url := by
        rw [redactGitUrl_some marked split, Written.url]
        simp [written, starts, hosted, recordedNetloc]
      rw [record, written.redact_url_iff, if_pos hosted]
      exact (and_iff_right schemed).symm
    · let written : Written := {
        scheme := parts.scheme
        authority := recordedNetloc parts.scheme parts.netloc
        path := parts.path
        named, lower
        whole := fun c mem => urlsplit_netloc split c (mem_recordedNetloc mem)
        begins := path.2 hosted
        pathWhole := path.1 }
      have record : redactGitUrl nfkc text = written.url := by
        rw [redactGitUrl_some marked split, Written.url]
        simp [written]
      rw [record, written.redact_url_iff, if_neg hosted, ← lasting_recorded lower]
      exact (and_iff_right schemed).symm

end

/-! What the fallback took apart. -/

/-- A URL with a userinfo, as the fallback finds it. -/
structure Credentials where
  scheme : List Char
  authority : List Char
  rest : List Char
  some' : scheme ≠ []
  unmarked : ':' ∉ scheme
  unslashed : '/' ∉ scheme
  whole : '/' ∉ authority
  marked : '@' ∈ authority
  begins : ∀ c ∈ rest.head?, c = '/'

namespace Credentials

variable (credentials : Credentials)

def url : List Char :=
  credentials.scheme ++ ':' :: '/' :: '/' :: (credentials.authority ++ credentials.rest)

def bare : List Char :=
  credentials.scheme ++ ':' :: '/' :: '/' :: (afterLast '@' credentials.authority ++ credentials.rest)

theorem bare_whole : '/' ∉ afterLast '@' credentials.authority := by
  intro inside
  apply credentials.whole
  rw [← (beforeLast_afterLast credentials.marked).1]
  simp [inside]

theorem bare_unmarked : '@' ∉ afterLast '@' credentials.authority := (beforeLast_afterLast credentials.marked).2

theorem dropUserinfo_url : dropUserinfo credentials.url = credentials.bare := by
  have parted := before_head credentials.whole credentials.begins
  rw [url, dropUserinfo_named credentials.some' credentials.unmarked credentials.unslashed, parted.1, parted.2,
    if_pos credentials.marked, bare]

theorem dropUserinfo_bare : dropUserinfo credentials.bare = credentials.bare := by
  have parted := before_head credentials.bare_whole credentials.begins
  rw [bare, dropUserinfo_named credentials.some' credentials.unmarked credentials.unslashed, parted.1,
    if_neg credentials.bare_unmarked]

end Credentials

theorem exists_credentials {text : List Char} (changes : dropUserinfo text ≠ text) :
    ∃ credentials : Credentials, credentials.url = text := by
  have free {c : Char} (other : (c != ':' && c != '/') = false) : c ∉ schemeText text := by
    intro inside
    rw [List.mem_takeWhile_imp inside] at other
    exact absurd other (by decide)
  have whole : schemeText text ++ text.drop (schemeText text).length = text :=
    List.prefix_iff_eq_append.mp (List.takeWhile_prefix _)
  unfold dropUserinfo at changes
  simp only at changes
  split at changes
  · rename_i c more authority scheme rest
    split at changes
    · rename_i marked
      refine ⟨{
        scheme := schemeText text
        authority := before '/' authority
        rest := authority.dropWhile (· != '/')
        some' := by
          rw [schemeText, scheme]
          exact List.cons_ne_nil c more
        unmarked := free (by decide)
        unslashed := free (by decide)
        whole := by
          intro inside
          simpa using List.mem_takeWhile_imp inside
        marked
        begins := by
          intro d first
          have stops := List.head?_dropWhile_not (· != '/') authority
          rw [Option.mem_def] at first
          rw [first] at stops
          simpa using stops }, ?_⟩
      have split : before '/' authority ++ authority.dropWhile (· != '/') = authority := List.takeWhile_append_dropWhile
      rw [Credentials.url, split, ← rest]
      exact whole
    · exact absurd rfl changes
  · exact absurd rfl changes

/-- What is dropped is a tail, but for a line break. -/
theorem dropTail_cut (text : List Char) : dropTail text = text ∨
    ∃ kept c tail left, text = kept ++ c :: tail ∧ (c = '?' ∨ c = '#') ∧ (left = [] ∨ left = ['\n']) ∧
      dropTail text = kept ++ left := by
  induction text with
  | nil => exact Or.inl rfl
  | cons c rest ih =>
    rw [dropTail_cons]
    split
    · rename_i marked
      exact Or.inr ⟨[], c, rest, rest.dropWhile (· != '\n'), rfl, by simpa [isTailMark] using marked.1, marked.2, rfl⟩
    · rcases ih with same | ⟨kept, d, tail, left, same, mark, short, dropped⟩
      · rw [same]
        exact Or.inl rfl
      · exact Or.inr ⟨c :: kept, d, tail, left, by rw [same, List.cons_append], mark, short, by rw [dropped, List.cons_append]⟩

/-- Without its tail a URL has no userinfo that it did not have before. -/
theorem dropUserinfo_dropTail {text : List Char} (bare : dropUserinfo text = text) :
    dropUserinfo (dropTail text) = dropTail text := by
  by_contra changes
  rcases dropTail_cut text with same | ⟨kept, c, tail, left, same, -, short, dropped⟩
  · rw [same] at changes
    exact changes bare
  · obtain ⟨credentials, url⟩ := exists_credentials changes
    have authority := (beforeLast_afterLast credentials.marked).1
    let front := credentials.scheme ++ ':' :: '/' :: '/' :: beforeLast '@' credentials.authority
    have shown : front ++ ['@'] <+: kept ++ left := by
      rw [← dropped, ← url, Credentials.url, ← authority]
      exact ⟨afterLast '@' credentials.authority ++ credentials.rest, by simp [front]⟩
    have inside : front ++ ['@'] <+: text := by
      rw [same]
      rcases short with rfl | rfl
      · rw [List.append_nil] at shown
        exact shown.trans (List.prefix_append _ _)
      · rcases List.prefix_concat_iff.mp shown with whole | shown
        · exact absurd (List.append_inj_right' whole rfl) (by decide)
        · exact shown.trans (List.prefix_append _ _)
    obtain ⟨rest, rfl⟩ := inside
    have unslashed : '/' ∉ beforeLast '@' credentials.authority ++ ['@'] := by
      intro mem
      apply credentials.whole
      rw [← authority]
      rcases List.mem_append.mp mem with mem | mem
      · exact List.mem_append_left _ mem
      · exact absurd mem (by decide)
    have marked : '@' ∈ before '/' (beforeLast '@' credentials.authority ++ ['@'] ++ rest) := by
      rw [before_append unslashed]
      simp
    have text : front ++ ['@'] ++ rest =
        credentials.scheme ++ ':' :: '/' :: '/' :: (beforeLast '@' credentials.authority ++ ['@'] ++ rest) := by
      simp [front]
    generalize beforeLast '@' credentials.authority ++ ['@'] ++ rest = below at marked text
    have parted : before '/' below ++ below.dropWhile (· != '/') = below := List.takeWhile_append_dropWhile
    rw [text, dropUserinfo_named credentials.some' credentials.unmarked credentials.unslashed, if_pos marked,
      List.append_cancel_left_eq] at bare
    simp only [List.cons.injEq, true_and] at bare
    have same : afterLast '@' (before '/' below) = before '/' below := List.append_cancel_right (bare.trans parted.symm)
    exact (beforeLast_afterLast marked).2 (by rwa [same])

section
variable {nfkc : List Char → List Char} {text : List Char}

/-- Without its tail a URL has the scheme and the netloc that it has with it. -/
theorem urlsplit_dropTail (nfkc : List Char → List Char) (text : List Char) :
    (urlsplit nfkc (dropTail text)).map (fun parts => (parts.scheme, parts.netloc)) =
      (urlsplit nfkc text).map fun parts => (parts.scheme, parts.netloc) := by
  rcases dropTail_cut text with same | ⟨kept, c, tail, left, rfl, mark, short, dropped⟩
  · rw [same]
  · rw [dropped]
    apply urlsplit_cut mark
    rcases short with rfl | rfl
    · simp
    · simp [isUnsafe]

theorem marked_concat {text : List Char} (marked : "://".toList <:+: text ++ ['\n']) : "://".toList <:+: text := by
  rcases List.infix_concat_iff.mp marked with ends | inside
  · obtain ⟨front, same⟩ := ends
    have last : (front ++ [':', '/']) ++ ['/'] = text ++ ['\n'] := by simpa using same
    exact absurd (List.append_inj_right' last rfl) (by decide)
  · exact inside

/-- What the fallback writes is a string that the fallback reads again: it lasts unless there is a relapse. -/
theorem settled_dropTail (bare : dropUserinfo text = text) (raises : urlsplit nfkc text = none) :
    redactGitUrl nfkc (dropTail text) = dropTail text ↔ ∀ kept, Relapse kept text → ¬ "://".toList <:+: kept := by
  have raises' : urlsplit nfkc (dropTail text) = none := by
    have same := urlsplit_dropTail nfkc text
    rw [raises] at same
    simpa using same
  by_cases marked : "://".toList <:+: dropTail text
  · rw [redactGitUrl_none marked raises', dropUserinfo_dropTail bare]
    constructor
    · intro same kept relapse
      exact absurd same relapse.changes
    · intro gone
      by_contra changes
      obtain ⟨kept, relapse⟩ := relapse_of_changes changes
      rw [relapse.dropTail] at marked
      exact gone kept relapse (marked_concat marked)
  · refine iff_of_true ?_ fun kept relapse inside => marked ?_
    · unfold redactGitUrl
      rw [if_pos marked]
    · rw [relapse.dropTail]
      exact inside.trans List.infix_append_left

/-! The fallback, where it found a userinfo. -/

namespace Credentials

variable (credentials : Credentials)

/-- The host that is left, and what follows it. -/
def host : List Char := (afterLast '@' credentials.authority ++ credentials.rest).takeWhile fun c => !endsNetloc c

def below : List Char := (afterLast '@' credentials.authority ++ credentials.rest).dropWhile fun c => !endsNetloc c

theorem bare_eq : credentials.bare =
    credentials.scheme ++ ':' :: '/' :: '/' :: (credentials.host ++ credentials.below) := by
  rw [bare, host, below, List.takeWhile_append_dropWhile]

theorem schemeText_bare : schemeText credentials.bare = credentials.scheme := by
  rw [schemeText, bare, List.takeWhile_append_of_pos]
  · simp
  · intro c inside
    simp [ne_of_mem_of_not_mem inside credentials.unmarked, ne_of_mem_of_not_mem inside credentials.unslashed]

theorem hostText_bare : hostText credentials.bare = credentials.host := by
  have front : credentials.bare =
      (credentials.scheme ++ [':', '/', '/']) ++ (afterLast '@' credentials.authority ++ credentials.rest) := by
    simp [bare]
  rw [hostText, schemeText_bare, front, List.drop_left' (by simp), host]

theorem host_whole : ∀ c ∈ credentials.host, endsNetloc c = false := by
  intro c inside
  simpa using List.mem_takeWhile_imp inside

theorem host_unmarked : '@' ∉ credentials.host := by
  intro inside
  have starts : credentials.host <+: afterLast '@' credentials.authority ++ credentials.rest := List.takeWhile_prefix _
  rcases List.prefix_or_prefix_of_prefix starts (List.prefix_append _ _) with shorter | ⟨more, longer⟩
  · exact credentials.bare_unmarked (shorter.subset inside)
  · rw [← longer, List.prefix_append_right_inj] at starts
    rcases more with _ | ⟨c, more⟩
    · rw [List.append_nil] at longer
      exact credentials.bare_unmarked (longer ▸ inside)
    · -- what follows the authority is a slash, where the host ends
      obtain ⟨left, rest⟩ := starts
      have slash : c = '/' := credentials.begins c (by rw [← rest]; rfl)
      have ends := credentials.host_whole c (by simp [← longer])
      rw [slash] at ends
      exact absurd ends (by decide)

theorem below_begins : ∀ c ∈ credentials.below.head?, endsNetloc c = true := by
  intro c first
  have stops := List.head?_dropWhile_not (fun c => !endsNetloc c) (afterLast '@' credentials.authority ++ credentials.rest)
  rw [Option.mem_def, below] at first
  rw [first] at stops
  simpa using stops

theorem named_of_raises (raises : urlsplit nfkc credentials.url = none) :
    isScheme (schemeName credentials.scheme) = true := by
  by_contra unnamed
  rw [url, urlsplit_unnamed nfkc credentials.unmarked credentials.unslashed (Bool.eq_false_iff.mpr unnamed)] at raises
  exact absurd raises (by simp)

theorem urlsplit_bare (named : isScheme (schemeName credentials.scheme) = true) : urlsplit nfkc credentials.bare =
    if isNetloc nfkc (clean credentials.host) then
      some (splitRest ((schemeName credentials.scheme).map Char.toLower) (clean credentials.host) (clean credentials.below))
    else none := by
  rw [bare_eq]
  exact urlsplit_named nfkc credentials.unmarked named credentials.host_whole credentials.below_begins

end Credentials

theorem mem_dropTail_line {text : List Char} (inside : '\n' ∈ text) : '\n' ∈ dropTail text := by
  induction text with
  | nil => exact inside
  | cons c rest ih =>
    rw [dropTail_cons]
    split
    · rename_i marked
      have below : '\n' ∈ rest := by
        rcases List.mem_cons.mp inside with same | below
        · rw [← same] at marked
          exact absurd marked.1 (by decide)
        · exact below
      rcases marked.2 with empty | single
      · rw [List.dropWhile_eq_nil_iff] at empty
        simpa using empty '\n' below
      · rw [single]
        simp
    · rcases List.mem_cons.mp inside with same | below
      · rw [same]
        exact List.mem_cons_self
      · exact List.mem_cons_of_mem _ (ih below)

/-- On one line a text ends at the first mark. -/
theorem dropTail_one {text : List Char} (line : '\n' ∉ text) : dropTail text = text.takeWhile fun c => !isTailMark c := by
  induction text with
  | nil => rfl
  | cons c rest ih =>
    rw [List.mem_cons, not_or] at line
    have single : rest.dropWhile (· != '\n') = [] := by
      rw [List.dropWhile_eq_nil_iff]
      intro d inside
      simpa using ne_of_mem_of_not_mem inside line.2
    rw [dropTail_cons, single, ih line.2]
    cases mark : isTailMark c <;> simp [mark]

theorem mem_schemeName {c : Char} {name : List Char} (inside : c ∈ name) (visible : isControlOrSpace c = false)
    (safe : isUnsafe c = false) : c ∈ schemeName name := by
  rw [schemeName, mem_clean]
  refine ⟨?_, safe⟩
  have whole : name.takeWhile isControlOrSpace ++ name.dropWhile isControlOrSpace = name :=
    List.takeWhile_append_dropWhile
  rw [← whole, List.mem_append] at inside
  rcases inside with control | left
  · rw [List.mem_takeWhile_imp control] at visible
    exact absurd visible (by decide)
  · exact left

/-- The tail begins behind the host. -/
theorem Credentials.front_unmarked (credentials : Credentials) (named : isScheme (schemeName credentials.scheme) = true) :
    ∀ c ∈ credentials.scheme ++ ':' :: '/' :: '/' :: credentials.host, c ≠ '?' ∧ c ≠ '#' := by
  intro c inside
  simp only [List.mem_append, List.mem_cons] at inside
  rcases inside with scheme | rfl | rfl | rfl | host
  · constructor
    · rintro rfl
      exact not_mem_of_isScheme named (by decide) (mem_schemeName scheme (by decide) (by decide))
    · rintro rfl
      exact not_mem_of_isScheme named (by decide) (mem_schemeName scheme (by decide) (by decide))
  · decide
  · decide
  · decide
  · exact not_tail_mark (credentials.host_whole c host)

/-- What the fallback writes can be taken apart: it lasts if the split would have written it so. -/
theorem settled_bare {credentials : Credentials} (named : isScheme (schemeName credentials.scheme) = true)
    (valid : isNetloc nfkc (clean credentials.host) = true) :
    redactGitUrl nfkc (dropTail credentials.bare) = dropTail credentials.bare ↔ Plain credentials.bare := by
  have front := credentials.front_unmarked named
  have bare : credentials.bare =
      (credentials.scheme ++ ':' :: '/' :: '/' :: credentials.host) ++ credentials.below := by
    rw [credentials.bare_eq, List.append_assoc]
    rfl
  have shorter : dropTail credentials.bare =
      (credentials.scheme ++ ':' :: '/' :: '/' :: credentials.host) ++ dropTail credentials.below := by
    rw [bare, dropTail_append front]
  constructor
  · intro same
    have split := urlsplit_dropTail nfkc credentials.bare
    rw [credentials.urlsplit_bare named, if_pos valid, Option.map_some, Option.map_eq_some_iff] at split
    obtain ⟨parts, split, read⟩ := split
    have scheme : parts.scheme = (schemeName credentials.scheme).map Char.toLower := congrArg Prod.fst read
    have marked : "://".toList <:+: dropTail credentials.bare := by
      rw [shorter]
      exact ⟨credentials.scheme, credentials.host ++ dropTail credentials.below, by simp⟩
    have schemed : parts.scheme ≠ [] := by
      intro empty
      rw [scheme, List.map_eq_nil_iff] at empty
      rw [empty] at named
      exact absurd named (by decide)
    have valid' := (urlsplit_scheme split schemed).1
    rw [redactGitUrl_some marked split] at same
    have safe : ∀ c ∈ dropTail credentials.bare, isUnsafe c = false := by
      intro c inside
      rw [← same] at inside
      simp only [List.mem_append] at inside
      rcases inside with ((scheme | mark) | netloc) | path
      · by_contra removed
        simp only [isUnsafe, Bool.not_eq_false, Bool.or_eq_true, beq_iff_eq] at removed
        rcases removed with (rfl | rfl) | rfl <;> exact not_mem_of_isScheme valid' (by decide) scheme
      · revert c
        exact List.all_iff_forall_prop.mp (by decide)
      · exact (urlsplit_netloc split c (mem_recordedNetloc netloc)).2
      · exact ((urlsplit_path split).1 c path).2.2
    have line : '\n' ∉ credentials.bare := fun inside => absurd (safe _ (mem_dropTail_line inside)) (by decide)
    refine ⟨?_, line, ?_⟩
    · have named' : before ':' (dropTail credentials.bare) = parts.scheme := by
        rw [← same, List.append_assoc, List.append_assoc]
        exact before_mark (not_mem_of_isScheme valid' (by decide))
      rw [shorter, List.append_assoc, List.cons_append, before_mark credentials.unmarked] at named'
      rw [credentials.schemeText_bare, ← scheme, named']
    · rwa [dropTail_one line] at safe
  · intro plain
    have scheme := plain.scheme
    rw [credentials.schemeText_bare] at scheme
    have taken : credentials.bare.takeWhile (fun c => !isTailMark c) =
        (credentials.scheme ++ ':' :: '/' :: '/' :: credentials.host) ++
          credentials.below.takeWhile fun c => !isTailMark c := by
      rw [bare, List.takeWhile_append_of_pos]
      intro c inside
      simp [isTailMark, front c inside]
    have safe := plain.safe
    rw [taken] at safe
    let written : Written := {
      scheme := credentials.scheme
      authority := credentials.host
      path := credentials.below.takeWhile fun c => !isTailMark c
      named := by
        rw [scheme]
        exact isScheme_toLower named
      lower := by
        rw [scheme]
        exact toLower_toLower _
      whole := fun c inside => ⟨credentials.host_whole c inside, safe c (by simp [inside])⟩
      begins := by
        intro c first
        rcases rest : credentials.below with _ | ⟨d, more⟩
        · rw [rest] at first
          exact absurd first (by simp)
        · have ends := credentials.below_begins d (by rw [rest]; rfl)
          rw [rest, List.takeWhile_cons] at first
          split at first
          · rename_i unmarked
            obtain rfl : d = c := by simpa using first
            have kept : d ≠ '?' ∧ d ≠ '#' := by simpa [isTailMark] using unmarked
            simpa [endsNetloc, kept] using ends
          · exact absurd first (by simp)
      pathWhole := by
        intro c inside
        have unmarked : isTailMark c = false := by simpa using List.mem_takeWhile_imp inside
        simp only [isTailMark, Bool.or_eq_false_iff, beq_eq_false_iff_ne] at unmarked
        exact ⟨unmarked.1, unmarked.2, safe c (List.mem_append_right _ inside)⟩ }
    have record : dropTail credentials.bare = written.url := by
      rw [dropTail_one plain.line, taken, List.append_assoc]
      rfl
    rw [record, written.redact_url_iff]
    exact fun marked => absurd marked credentials.host_unmarked

theorem settled_none (marked : "://".toList <:+: text) (raises : urlsplit nfkc text = none) :
    redactGitUrl nfkc (redactGitUrl nfkc text) = redactGitUrl nfkc text ↔
      if dropUserinfo text ≠ text ∧ isNetloc nfkc (clean (hostText (dropUserinfo text))) then Plain (dropUserinfo text)
      else ∀ kept, Relapse kept (dropUserinfo text) → ¬ "://".toList <:+: kept := by
  rw [redactGitUrl_none marked raises]
  by_cases changes : dropUserinfo text = text
  · rw [if_neg fun found => found.1 changes, changes]
    exact settled_dropTail changes raises
  · obtain ⟨credentials, rfl⟩ := exists_credentials changes
    have named := credentials.named_of_raises raises
    rw [credentials.dropUserinfo_url, credentials.hostText_bare]
    by_cases valid : isNetloc nfkc (clean credentials.host) = true
    · rw [if_pos ⟨credentials.dropUserinfo_url ▸ changes, valid⟩]
      exact settled_bare named valid
    · rw [if_neg fun found => valid found.2]
      apply settled_dropTail credentials.dropUserinfo_bare
      rw [credentials.urlsplit_bare named, if_neg valid]

/-- Recording a record leaves it as it is under this condition, and under no other. -/
theorem redacted_twice_iff (nfkc : List Char → List Char) (url : List Char) :
    redactGitUrl nfkc (redactGitUrl nfkc url) = redactGitUrl nfkc url ↔ Settled nfkc url := by
  by_cases marked : "://".toList <:+: url
  · rw [Settled, imp_iff_right marked]
    split
    · exact settled_some marked ‹_›
    · exact settled_none marked ‹_›
  · have same : redactGitUrl nfkc url = url := by
      unfold redactGitUrl
      rw [if_pos marked]
    rw [same, same]
    exact iff_of_true rfl fun inside => absurd inside marked

end

/-- A remote of the short form, with an address in its query, is longer with each record. -/
theorem short_remote_grows : ¬∀ (nfkc : List Char → List Char) (url : List Char),
    redactGitUrl nfkc (redactGitUrl nfkc url) = redactGitUrl nfkc url := by
  intro same
  exact absurd (same id "git@h:r?u=x://y".toList) (by decide +kernel)

end AibomWebhook.GitUrl
