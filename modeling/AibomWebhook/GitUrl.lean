import AibomWebhook.Library.PyUrl

/-! What of a git remote's URL is recorded. -/

namespace AibomWebhook.GitUrl

open PyUrl

/-- The schemes whose whole userinfo is dropped. -/
def webSchemes : List (List Char) := ["http".toList, "https".toList, "ftp".toList, "ftps".toList]

/-- `re.sub(r"^([^:/]+://)[^/]*@", r"\1", url)`. -/
def dropUserinfo (url : List Char) : List Char :=
  let scheme := url.takeWhile fun c => c != ':' && c != '/'
  match scheme, url.drop scheme.length with
  | _ :: _, ':' :: '/' :: '/' :: rest =>
    let authority := before '/' rest
    if '@' ∈ authority then scheme ++ "://".toList ++ afterLast '@' authority ++ rest.dropWhile (· != '/') else url
  | _, _ => url

/-- `re.sub(r"[?#].*$", "", url)`: the dot stops at a line break, and `$` holds at the end and before a last one. -/
def dropTail : List Char → List Char
  | [] => []
  | c :: rest =>
    let left := rest.dropWhile (· != '\n')
    if (c = '?' ∨ c = '#') ∧ (left = [] ∨ left = ['\n']) then left else c :: dropTail rest

/-- `redact_git_url` and `_redact_git_url`, which are one text. -/
def redactGitUrl (nfkc : List Char → List Char) (url : List Char) : List Char :=
  if ¬ "://".toList <:+: url then url
  else match urlsplit nfkc url with
  | none => dropTail (dropUserinfo url)
  | some parts =>
    let netloc :=
      if '@' ∈ parts.netloc then
        let userinfo := beforeLast '@' parts.netloc
        let hostport := afterLast '@' parts.netloc
        let user := before ':' userinfo
        if parts.scheme.map Char.toLower ∈ webSchemes then hostport
        else if user ≠ [] then user ++ '@' :: hostport else hostport
      else parts.netloc
    parts.scheme ++ "://".toList ++ netloc ++ parts.path

/-- What a URL names the repository by. -/
structure Location where
  scheme : List Char
  host : List Char
  path : List Char
  schemeWhole : ∀ c ∈ scheme, c ≠ ':' ∧ endsNetloc c = false
  hostWhole : ∀ c ∈ host, c ≠ '@' ∧ endsNetloc c = false
  pathBegins : ∀ c ∈ path.head?, c = '/'
  pathWhole : ∀ c ∈ path, c ≠ '?' ∧ c ≠ '#'

/-- A userinfo, which ends before the host. -/
structure Userinfo where
  text : List Char
  whole : ∀ c ∈ text, endsNetloc c = false

/-- A query and a fragment, either of which may be missing. -/
structure Tail where
  text : List Char
  begins : ∀ c ∈ text.head?, c = '?' ∨ c = '#'

/-- `scheme://userinfo@host/path?query#fragment`. -/
def Location.url (location : Location) (userinfo : Userinfo) (tail : Tail) : List Char :=
  location.scheme ++ ':' :: '/' :: '/' :: ((userinfo.text ++ '@' :: location.host) ++ (location.path ++ tail.text))

variable (nfkc : List Char → List Char) (location : Location)

/-- Two userinfos that differ in nothing but credentials: of a web scheme they are all of it. -/
def Alike (first second : Userinfo) : Prop :=
  location.scheme.map Char.toLower ∈ webSchemes ∨ before ':' first.text = before ':' second.text

/-- `urlsplit` does not raise `ValueError`. -/
def Parses (userinfo : Userinfo) : Prop := isNetloc nfkc (clean (userinfo.text ++ '@' :: location.host)) = true

instance (userinfo : Userinfo) : Decidable (Parses nfkc location userinfo) :=
  inferInstanceAs (Decidable (_ = true))

/-- The fallback and the split write the location the same way. -/
structure Tidy (userinfo : Userinfo) : Prop where
  scheme : location.scheme = (schemeName location.scheme).map Char.toLower
  host : ∀ c ∈ location.host, isUnsafe c = false
  path : ∀ c ∈ location.path, isUnsafe c = false
  user : location.scheme.map Char.toLower ∈ webSchemes ∨ clean (before ':' userinfo.text) = []

/-- The fallback takes the tail for what it is. -/
structure Quiet (tail : Tail) : Prop where
  line : '\n' ∉ tail.text
  host : location.path = [] → '@' ∉ before '/' tail.text

/-! The split. -/

variable {nfkc location}

theorem marked_url (location : Location) (userinfo : Userinfo) (tail : Tail) : "://".toList <:+: location.url userinfo tail :=
  ⟨location.scheme, (userinfo.text ++ '@' :: location.host) ++ (location.path ++ tail.text), by simp [Location.url]⟩

theorem Location.unmarked : ':' ∉ location.scheme := fun inside => (location.schemeWhole _ inside).1 rfl

theorem Location.hostUnmarked : '@' ∉ location.host := fun inside => (location.hostWhole _ inside).1 rfl

theorem authority_whole (location : Location) (userinfo : Userinfo) :
    ∀ c ∈ userinfo.text ++ '@' :: location.host, endsNetloc c = false := by
  intro c inside
  rcases List.mem_append.mp inside with user | host
  · exact userinfo.whole c user
  · rcases List.mem_cons.mp host with rfl | host
    · decide
    · exact (location.hostWhole c host).2

theorem rest_begins (location : Location) (tail : Tail) : ∀ c ∈ (location.path ++ tail.text).head?, endsNetloc c = true := by
  intro c first
  rcases path : location.path with _ | ⟨d, more⟩
  · rw [path, List.nil_append] at first
    rcases tail.begins c first with rfl | rfl <;> decide
  · rw [path] at first
    have slash : d = '/' := location.pathBegins d (by simp [path])
    simp only [List.cons_append, List.head?_cons, Option.mem_some_iff] at first
    rw [← first, slash]
    decide

theorem clean_tail_begins (tail : Tail) : ∀ c ∈ (clean tail.text).head?, c = '?' ∨ c = '#' := by
  rcases whole : tail.text with _ | ⟨d, more⟩
  · simp [clean]
  · have mark : d = '?' ∨ d = '#' := tail.begins d (by simp [whole])
    have safe : isUnsafe d = false := by rcases mark with rfl | rfl <;> decide
    simp [clean_cons safe, mark]

theorem before_clean (text : List Char) : before ':' (clean text) = clean (before ':' text) := by
  induction text with
  | nil => rfl
  | cons c rest ih =>
    by_cases colon : c = ':'
    · subst colon
      rw [clean_cons (by decide)]
      simp [before, clean]
    · have other : (c != ':') = true := by simpa using colon
      have head : before ':' (c :: rest) = c :: before ':' rest := by simp [before, other]
      cases safe : isUnsafe c with
      | false =>
        rw [clean_cons safe, head, clean_cons safe, ← ih]
        simp [before, other]
      | true =>
        have dropped (more : List Char) : clean (c :: more) = clean more := by simp [clean, safe]
        rw [head, dropped, dropped, ih]

/-- What is written of a URL that `urlsplit` takes apart. -/
def recorded (location : Location) (user : List Char) : List Char :=
  let scheme := (schemeName location.scheme).map Char.toLower
  let netloc :=
    if scheme.map Char.toLower ∈ webSchemes then clean location.host
    else if clean user ≠ [] then clean user ++ '@' :: clean location.host else clean location.host
  scheme ++ "://".toList ++ netloc ++ clean location.path

theorem urlsplit_url (named : isScheme (schemeName location.scheme) = true) (userinfo : Userinfo) (tail : Tail) :
    urlsplit nfkc (location.url userinfo tail) =
      if Parses nfkc location userinfo then
        some (splitRest ((schemeName location.scheme).map Char.toLower)
          (clean (userinfo.text ++ '@' :: location.host)) (clean (location.path ++ tail.text))) else none :=
  urlsplit_named nfkc location.unmarked named (authority_whole location userinfo) (rest_begins location tail)

theorem splitRest_url (scheme netloc : List Char) (tail : Tail) :
    (splitRest scheme netloc (clean (location.path ++ tail.text))).path = clean location.path := by
  rw [clean_append]
  exact splitRest_path _ _ (fun c inside => location.pathWhole c (mem_clean.mp inside).1) (clean_tail_begins tail)

theorem redactGitUrl_parses {userinfo : Userinfo} (named : isScheme (schemeName location.scheme) = true)
    (parses : Parses nfkc location userinfo) (tail : Tail) :
    redactGitUrl nfkc (location.url userinfo tail) = recorded location (before ':' userinfo.text) := by
  have netloc : clean (userinfo.text ++ '@' :: location.host) = clean userinfo.text ++ '@' :: clean location.host := by
    rw [clean_append, clean_cons (by decide)]
  have unmarked : '@' ∉ clean location.host := fun inside => location.hostUnmarked (mem_clean.mp inside).1
  have credentials : '@' ∈ clean userinfo.text ++ '@' :: clean location.host := by simp
  unfold redactGitUrl
  rw [if_neg (not_not_intro (marked_url location userinfo tail)), urlsplit_url named userinfo tail, if_pos parses]
  simp only [splitRest_url]
  simp only [splitRest, netloc, if_pos credentials, afterLast_mark unmarked, beforeLast_mark unmarked, before_clean]
  rfl

theorem not_tail_mark {c : Char} (whole : endsNetloc c = false) : c ≠ '?' ∧ c ≠ '#' := by
  constructor <;> rintro rfl <;> exact absurd whole (by decide)

/-- What is written of a URL without a scheme. -/
def unnamedRecord (location : Location) (userinfo : List Char) : List Char :=
  schemeName location.scheme ++ "://".toList ++ clean userinfo ++ '@' :: (clean location.host ++ clean location.path)

theorem unnamedRecord_whole (location : Location) (userinfo : Userinfo) :
    ∀ c ∈ unnamedRecord location userinfo.text, c ≠ '?' ∧ c ≠ '#' := by
  intro c inside
  simp only [unnamedRecord, List.mem_append, List.mem_cons] at inside
  rcases inside with ((scheme | mark) | user) | rfl | host | path
  · exact not_tail_mark (location.schemeWhole c (mem_of_mem_schemeName scheme)).2
  · revert c
    exact List.all_iff_forall_prop.mp (by decide)
  · exact not_tail_mark (userinfo.whole c (mem_clean.mp user).1)
  · decide
  · exact not_tail_mark (location.hostWhole c (mem_clean.mp host).1).2
  · exact location.pathWhole c (mem_clean.mp path).1

/-- Without a scheme nothing but the tail is dropped. -/
theorem redactGitUrl_unnamed (unnamed : isScheme (schemeName location.scheme) = false) (userinfo : Userinfo)
    (tail : Tail) : redactGitUrl nfkc (location.url userinfo tail) =
      "://".toList ++ unnamedRecord location userinfo.text := by
  have unslashed : '/' ∉ location.scheme := fun inside => absurd (location.schemeWhole _ inside).2 (by decide)
  have cleaned : schemeName location.scheme ++ ':' :: clean ('/' :: '/' :: ((userinfo.text ++ '@' :: location.host) ++
      (location.path ++ tail.text))) = unnamedRecord location userinfo.text ++ clean tail.text := by
    rw [clean_cons (by decide), clean_cons (by decide), clean_append, clean_append, clean_append, clean_cons (by decide)]
    simp [unnamedRecord]
  have path : urlsplit nfkc (location.url userinfo tail) =
      some (splitRest [] [] (unnamedRecord location userinfo.text ++ clean tail.text)) := by
    rw [← cleaned]
    exact urlsplit_unnamed nfkc location.unmarked unslashed unnamed
  unfold redactGitUrl
  rw [if_neg (not_not_intro (marked_url location userinfo tail)), path]
  simp only [splitRest_path _ _ (unnamedRecord_whole location userinfo) (clean_tail_begins tail)]
  simp [splitRest]

/-! The fallback. -/

theorem dropTail_append {kept rest : List Char} (whole : ∀ c ∈ kept, c ≠ '?' ∧ c ≠ '#') :
    dropTail (kept ++ rest) = kept ++ dropTail rest := by
  induction kept with
  | nil => rfl
  | cons c more ih =>
    have unmarked : ¬(c = '?' ∨ c = '#') := by
      rintro (mark | mark)
      · exact (whole c (by simp)).1 mark
      · exact (whole c (by simp)).2 mark
    rw [List.cons_append, dropTail]
    simp only [unmarked, false_and, if_false]
    rw [ih fun d inside => whole d (by simp [inside]), List.cons_append]

/-- On one line the whole tail goes. -/
theorem dropTail_line (tail : Tail) (line : '\n' ∉ tail.text) : dropTail tail.text = [] := by
  rcases whole : tail.text with _ | ⟨c, rest⟩
  · rfl
  · have mark : c = '?' ∨ c = '#' := tail.begins c (by simp [whole])
    have skipped : rest.dropWhile (· != '\n') = [] := by
      rw [List.dropWhile_eq_nil_iff]
      intro d inside
      have other : d ≠ '\n' := by
        rintro rfl
        exact line (by simp [whole, inside])
      simpa using other
    rw [dropTail]
    simp [mark, skipped]

/-- The userinfo that the fallback finds ends at the host, unless the tail has an at sign where the path is empty. -/
theorem dropUserinfo_url {userinfo : Userinfo} {tail : Tail} (schemed : location.scheme ≠ [])
    (host : location.path = [] → '@' ∉ before '/' tail.text) :
    dropUserinfo (location.url userinfo tail) =
      location.scheme ++ "://".toList ++ (location.host ++ location.path) ++ tail.text := by
  have scheme : (location.url userinfo tail).takeWhile (fun c => c != ':' && c != '/') = location.scheme := by
    unfold Location.url
    rw [List.takeWhile_append_of_pos]
    · simp
    · intro c inside
      have unslashed : c ≠ '/' := by
        rintro rfl
        exact absurd (location.schemeWhole _ inside).2 (by decide)
      simp [(location.schemeWhole c inside).1, unslashed]
  have rest : (location.url userinfo tail).drop location.scheme.length =
      ':' :: '/' :: '/' :: ((userinfo.text ++ '@' :: location.host) ++ (location.path ++ tail.text)) := by
    simp [Location.url]
  have unslashed : '/' ∉ userinfo.text ++ '@' :: location.host :=
    fun inside => absurd (authority_whole location userinfo _ inside) (by decide)
  have unmarked : '@' ∉ location.host ++ before '/' (location.path ++ tail.text) := by
    rw [List.mem_append]
    rintro (inside | inside)
    · exact location.hostUnmarked inside
    · rcases path : location.path with _ | ⟨c, more⟩
      · rw [path, List.nil_append] at inside
        exact host path inside
      · have slash : c = '/' := location.pathBegins c (by simp [path])
        rw [path, slash] at inside
        simp [before] at inside
  have authority : before '/' ((userinfo.text ++ '@' :: location.host) ++ (location.path ++ tail.text)) =
      userinfo.text ++ '@' :: (location.host ++ before '/' (location.path ++ tail.text)) := by
    rw [before_append unslashed]
    simp
  have left : ((userinfo.text ++ '@' :: location.host) ++ (location.path ++ tail.text)).dropWhile (· != '/') =
      (location.path ++ tail.text).dropWhile (· != '/') :=
    List.dropWhile_append_of_pos fun c inside => by simpa using ne_of_mem_of_not_mem inside unslashed
  unfold dropUserinfo
  simp only [scheme, rest]
  rcases name : location.scheme with _ | ⟨c, more⟩
  · exact absurd name schemed
  · simp only [authority, left, afterLast_mark unmarked, List.mem_append, List.mem_cons, true_or, or_true, if_true]
    have whole : before '/' (location.path ++ tail.text) ++ (location.path ++ tail.text).dropWhile (· != '/') =
        location.path ++ tail.text := List.takeWhile_append_dropWhile
    simp only [List.append_assoc, whole]

theorem redactGitUrl_raises {userinfo : Userinfo} {tail : Tail} (named : isScheme (schemeName location.scheme) = true)
    (raises : ¬Parses nfkc location userinfo) (host : location.path = [] → '@' ∉ before '/' tail.text) :
    redactGitUrl nfkc (location.url userinfo tail) =
      location.scheme ++ "://".toList ++ (location.host ++ location.path) ++ dropTail tail.text := by
  have schemed : location.scheme ≠ [] := by
    intro empty
    rw [empty] at named
    exact absurd named (by decide)
  have whole : ∀ c ∈ location.scheme ++ "://".toList ++ (location.host ++ location.path), c ≠ '?' ∧ c ≠ '#' := by
    intro c inside
    simp only [List.mem_append] at inside
    rcases inside with (scheme | mark) | host | path
    · exact not_tail_mark (location.schemeWhole c scheme).2
    · revert c
      exact List.all_iff_forall_prop.mp (by decide)
    · exact not_tail_mark (location.hostWhole c host).2
    · exact location.pathWhole c path
  unfold redactGitUrl
  rw [if_neg (not_not_intro (marked_url location userinfo tail)), urlsplit_url named userinfo tail, if_neg raises]
  simp only
  rw [dropUserinfo_url schemed host, dropTail_append whole]

/-! What the split writes. -/

theorem toLower_eq_self {c : Char} (small : c.toNat < 65) : c.toLower = c := by
  have below : ¬c.val ≥ 'A'.val := by
    intro above
    have : 65 ≤ c.toNat := above
    omega
  delta Char.toLower
  rw [dif_neg fun upper => below upper.1]

theorem toLower_small {c : Char} (small : c.toLower.toNat < 65) : c.toLower = c := by
  apply toLower_eq_self
  by_contra large
  revert small
  delta Char.toLower
  split
  · rename_i upper
    have above : c.toNat ≤ 90 := upper.2
    have moved : (c.val + ('a'.val - 'A'.val)).toNat = c.toNat + 32 := by
      rw [UInt32.toNat_add]
      have : ('a'.val - 'A'.val).toNat = 32 := rfl
      have : c.val.toNat = c.toNat := rfl
      omega
    intro small
    change (c.val + ('a'.val - 'A'.val)).toNat < 65 at small
    omega
  · intro small
    omega

/-- Lower case adds no mark. -/
theorem not_mem_toLower {c : Char} {text : List Char} (small : c.toNat < 65) (free : c ∉ text) :
    c ∉ text.map Char.toLower := by
  intro inside
  obtain ⟨d, mem, rfl⟩ := List.mem_map.mp inside
  rw [toLower_small small] at free
  exact free mem

/-- A web scheme is read as it is written. -/
theorem schemeName_web {scheme : List Char} (web : scheme.map Char.toLower ∈ webSchemes) : schemeName scheme = scheme := by
  have letters : ∀ w ∈ webSchemes, (w.all fun c => 65 ≤ c.toNat) = true := by decide
  have large : ∀ c ∈ scheme, 65 ≤ c.toNat := by
    intro c inside
    by_contra small
    have same : c.toLower = c := toLower_eq_self (by omega)
    have above := List.all_eq_true.mp (letters _ web) c.toLower (List.mem_map_of_mem inside)
    exact small (same ▸ of_decide_eq_true above)
  have safe : clean scheme = scheme := by
    rw [clean_eq_self]
    intro c inside
    have above := large c inside
    by_contra removed
    simp only [isUnsafe, Bool.or_eq_false_iff, beq_eq_false_iff_ne, ne_eq, not_and_or, not_not] at removed
    rcases removed with (rfl | rfl) | rfl <;> exact absurd above (by decide)
  rw [schemeName]
  rcases scheme with _ | ⟨c, more⟩
  · rfl
  · have above : 65 ≤ c.toNat := large c (by simp)
    have visible : ¬isControlOrSpace c = true := by simp [isControlOrSpace]; omega
    rw [List.dropWhile_cons_of_neg visible, safe]

theorem recorded_alike {first second : Userinfo} (alike : Alike location first second) :
    recorded location (before ':' first.text) = recorded location (before ':' second.text) := by
  rcases alike with web | same
  · have lower : ∀ w ∈ webSchemes, w.map Char.toLower = w := by decide
    have read : ((schemeName location.scheme).map Char.toLower).map Char.toLower ∈ webSchemes := by
      rw [schemeName_web web, lower _ web]
      exact web
    unfold recorded
    simp only [if_pos read]
  · rw [same]

/-- The split writes one line. -/
theorem recorded_line (user : List Char) : '\n' ∉ recorded location user := by
  have cleaned (text : List Char) : '\n' ∉ clean text := fun inside => absurd (mem_clean.mp inside).2 (by decide)
  have scheme : '\n' ∉ (schemeName location.scheme).map Char.toLower :=
    not_mem_toLower (by decide) (cleaned _)
  unfold recorded
  simp only [List.mem_append, not_or]
  refine ⟨⟨⟨scheme, by decide⟩, ?_⟩, cleaned _⟩
  split
  · exact cleaned _
  · split
    · simp [cleaned]
    · exact cleaned _

/-- The host ends at the path. -/
theorem before_path (location : Location) : before '/' (location.host ++ location.path) = location.host := by
  have unslashed : '/' ∉ location.host := fun inside => absurd (location.hostWhole _ inside).2 (by decide)
  rw [before_append unslashed]
  rcases path : location.path with _ | ⟨c, more⟩
  · simp [before]
  · have slash : c = '/' := location.pathBegins c (by simp [path])
    simp [before, slash]

/-- With a user the split keeps an at sign that the fallback drops. -/
theorem user_kept (location : Location) (userinfo : Userinfo) (rest : List Char) :
    location.host ++ location.path ≠ clean (before ':' userinfo.text) ++ '@' :: rest := by
  intro same
  have unslashed : '/' ∉ clean (before ':' userinfo.text) := by
    intro inside
    have mem : '/' ∈ userinfo.text := (List.takeWhile_sublist _).subset (mem_clean.mp inside).1
    exact absurd (userinfo.whole _ mem) (by decide)
  have host := before_path location
  rw [same, before_append unslashed] at host
  apply location.hostUnmarked
  rw [← host]
  simp [before]

/-- The split and the fallback agree on a tidy URL alone. -/
theorem recorded_tidy (userinfo : Userinfo) :
    location.scheme ++ "://".toList ++ (location.host ++ location.path) = recorded location (before ':' userinfo.text) ↔
      Tidy location userinfo := by
  have marked (first second : List Char) : first ++ "://".toList ++ second = first ++ ':' :: ('/' :: '/' :: second) := by
    simp
  have unmarked : ':' ∉ (schemeName location.scheme).map Char.toLower :=
    not_mem_toLower (by decide) fun inside => location.unmarked (mem_of_mem_schemeName inside)
  have cleaned : clean (location.host ++ location.path) = location.host ++ location.path ↔
      (∀ c ∈ location.host, isUnsafe c = false) ∧ ∀ c ∈ location.path, isUnsafe c = false := by
    rw [clean_eq_self]
    simp [or_imp, forall_and]
  constructor
  · intro same
    unfold recorded at same
    simp only [List.append_assoc _ _ (clean location.path)] at same
    rw [marked, marked] at same
    have scheme := congrArg (before ':') same
    have rest := congrArg (after ':') same
    rw [before_mark location.unmarked, before_mark unmarked] at scheme
    rw [after_mark location.unmarked, after_mark unmarked] at rest
    simp only [List.cons.injEq, true_and] at rest
    rw [← scheme] at rest
    split at rest
    · rename_i web
      rw [← clean_append] at rest
      exact ⟨scheme, (cleaned.mp rest.symm).1, (cleaned.mp rest.symm).2, .inl web⟩
    · split at rest
      · rw [List.append_assoc, List.cons_append] at rest
        exact absurd rest (user_kept location userinfo _)
      · rename_i userless
        rw [← clean_append] at rest
        exact ⟨scheme, (cleaned.mp rest.symm).1, (cleaned.mp rest.symm).2, .inr (not_not.mp userless)⟩
  · intro tidy
    have safe := cleaned.mpr ⟨tidy.host, tidy.path⟩
    have netloc : (if location.scheme.map Char.toLower ∈ webSchemes then clean location.host
        else if clean (before ':' userinfo.text) ≠ [] then clean (before ':' userinfo.text) ++ '@' :: clean location.host
        else clean location.host) = clean location.host := by
      rcases tidy.user with web | userless
      · rw [if_pos web]
      · simp [userless]
    unfold recorded
    simp only [← tidy.scheme, netloc]
    rw [List.append_assoc _ (clean location.host), ← clean_append, safe]

/-! Any two URLs of one location. -/

/-- No query and no fragment can show a difference. -/
def Erased (nfkc : List Char → List Char) (location : Location) (first second : Userinfo) : Prop :=
  if isScheme (schemeName location.scheme) = true then Parses nfkc location first ∧ Parses nfkc location second
  else clean first.text = clean second.text

instance (first second : Userinfo) : Decidable (Erased nfkc location first second) :=
  inferInstanceAs (Decidable (if isScheme (schemeName location.scheme) = true then _ ∧ _ else _ = _))

/-- No quiet query and fragment can show a difference. -/
def ErasedQuietly (nfkc : List Char → List Char) (location : Location) (first second : Userinfo) : Prop :=
  if isScheme (schemeName location.scheme) = true then
    (Parses nfkc location first ↔ Parses nfkc location second) ∨ Tidy location first
  else clean first.text = clean second.text

/-- A query that the fallback keeps. -/
def lineBreak (c : Char) : Tail where
  text := ['?', '\n', c]
  begins := by simp

theorem dropTail_lineBreak {c : Char} (other : c ≠ '?' ∧ c ≠ '#') : dropTail (lineBreak c).text = ['?', '\n', c] := by
  simp [lineBreak, dropTail, other]

/-- A raised `ValueError` shows the query. -/
theorem raises_shows {first : Userinfo} (named : isScheme (schemeName location.scheme) = true)
    (raises : ¬Parses nfkc location first) (second : Userinfo) :
    ∃ tail tail', redactGitUrl nfkc (location.url first tail) ≠ redactGitUrl nfkc (location.url second tail') := by
  have shown (userinfo : Userinfo) (falls : ¬Parses nfkc location userinfo) (c : Char) (other : c ≠ '?' ∧ c ≠ '#')
      (plain : c ≠ '@') : redactGitUrl nfkc (location.url userinfo (lineBreak c)) =
        location.scheme ++ "://".toList ++ (location.host ++ location.path) ++ ['?', '\n', c] := by
    rw [redactGitUrl_raises named falls, dropTail_lineBreak other]
    intro _ inside
    have mem : '@' ∈ ['?', '\n', c] := (List.takeWhile_sublist _).subset inside
    simp [plain.symm] at mem
  refine ⟨lineBreak 'a', lineBreak 'b', fun same => ?_⟩
  rw [shown first raises 'a' (by decide) (by decide)] at same
  by_cases parses : Parses nfkc location second
  · rw [redactGitUrl_parses named parses] at same
    apply recorded_line (before ':' second.text)
    rw [← same]
    simp
  · rw [shown second parses 'b' (by decide) (by decide)] at same
    have last := List.append_cancel_left same
    exact absurd last (by decide)

theorem unnamed_same (unnamed : isScheme (schemeName location.scheme) = false) (first second : Userinfo)
    (tail tail' : Tail) : redactGitUrl nfkc (location.url first tail) = redactGitUrl nfkc (location.url second tail') ↔
      clean first.text = clean second.text := by
  rw [redactGitUrl_unnamed unnamed, redactGitUrl_unnamed unnamed]
  simp [unnamedRecord]

theorem erased_iff {first second : Userinfo} (alike : Alike location first second) :
    (∀ tail tail', redactGitUrl nfkc (location.url first tail) = redactGitUrl nfkc (location.url second tail')) ↔
      Erased nfkc location first second := by
  unfold Erased
  cases named : isScheme (schemeName location.scheme) with
  | false =>
    simp only [unnamed_same named, Bool.false_eq_true, if_false]
    exact ⟨fun same => same ⟨[], by simp⟩ ⟨[], by simp⟩, fun same _ _ => same⟩
  | true =>
    simp only [if_true]
    constructor
    · intro same
      constructor
      · by_contra raises
        obtain ⟨tail, tail', differ⟩ := raises_shows named raises second
        exact differ (same tail tail')
      · by_contra raises
        obtain ⟨tail, tail', differ⟩ := raises_shows named raises first
        exact differ (same tail' tail).symm
    · rintro ⟨parses, parses'⟩ tail tail'
      rw [redactGitUrl_parses named parses, redactGitUrl_parses named parses', recorded_alike alike]

theorem redactGitUrl_quiet {userinfo : Userinfo} {tail : Tail} (named : isScheme (schemeName location.scheme) = true)
    (raises : ¬Parses nfkc location userinfo) (quiet : Quiet location tail) :
    redactGitUrl nfkc (location.url userinfo tail) = location.scheme ++ "://".toList ++ (location.host ++ location.path) := by
  rw [redactGitUrl_raises named raises quiet.host, dropTail_line tail quiet.line, List.append_nil]

theorem Alike.tidy {first second : Userinfo} (alike : Alike location first second) :
    Tidy location first ↔ Tidy location second := by
  rw [← recorded_tidy, ← recorded_tidy, recorded_alike alike]

theorem erasedQuietly_iff {first second : Userinfo} {tail tail' : Tail} (alike : Alike location first second)
    (quiet : Quiet location tail) (quiet' : Quiet location tail') :
    redactGitUrl nfkc (location.url first tail) = redactGitUrl nfkc (location.url second tail') ↔
      ErasedQuietly nfkc location first second := by
  unfold ErasedQuietly
  cases named : isScheme (schemeName location.scheme) with
  | false => simp only [unnamed_same named, Bool.false_eq_true, if_false]
  | true =>
    simp only [if_true]
    by_cases parses : Parses nfkc location first <;> by_cases parses' : Parses nfkc location second
    · simp only [redactGitUrl_parses named parses, redactGitUrl_parses named parses', recorded_alike alike, parses, parses',
        true_or]
    · rw [redactGitUrl_parses named parses, redactGitUrl_quiet named parses' quiet', eq_comm, recorded_tidy]
      simp [parses, parses']
    · rw [redactGitUrl_quiet named parses quiet, redactGitUrl_parses named parses', recorded_tidy, alike.tidy]
      simp [parses, parses']
    · simp only [redactGitUrl_quiet named parses quiet, redactGitUrl_quiet named parses' quiet', parses, parses', true_or]

/-- Two URLs that differ in credentials, query and fragment alone are recorded alike when neither raises `ValueError`,
and where one does a query can show. -/
theorem credentials_erased (nfkc : List Char → List Char) (location : Location) (first second : Userinfo)
    (alike : Alike location first second) :
    ((∀ tail tail', redactGitUrl nfkc (location.url first tail) = redactGitUrl nfkc (location.url second tail')) ↔
      Erased nfkc location first second) ∧
    ∀ tail tail', Quiet location tail → Quiet location tail' →
      (redactGitUrl nfkc (location.url first tail) = redactGitUrl nfkc (location.url second tail') ↔
        ErasedQuietly nfkc location first second) :=
  ⟨erased_iff alike, fun _ _ quiet quiet' => erasedQuietly_iff alike quiet quiet'⟩

/-- `https://_@github.com/org/repo`. -/
def repo : Location where
  scheme := "https".toList
  host := "github.com".toList
  path := "/org/repo".toList
  schemeWhole := List.all_iff_forall_prop.mp (by decide)
  hostWhole := List.all_iff_forall_prop.mp (by decide)
  pathBegins := fun _ front => (Option.some.inj front).symm
  pathWhole := List.all_iff_forall_prop.mp (by decide)

def namedToken : Userinfo := ⟨"x-access-token:ghp".toList, List.all_iff_forall_prop.mp (by decide)⟩

def bareToken : Userinfo := ⟨"ghp".toList, List.all_iff_forall_prop.mp (by decide)⟩

/-- Whatever the query, neither a token nor a name and a password are recorded. -/
theorem credentials_erased_of_repo :
    redactGitUrl id (repo.url namedToken ⟨"?token=SECRET".toList, fun _ front => .inl (Option.some.inj front).symm⟩) =
      redactGitUrl id (repo.url bareToken ⟨[], nofun⟩) :=
  (credentials_erased id repo namedToken bareToken (.inl (by decide))).1.mpr (by decide) _ _

/-- `https://_@[::1`. -/
def unclosed : Location where
  scheme := "https".toList
  host := "[::1".toList
  path := []
  schemeWhole := List.all_iff_forall_prop.mp (by decide)
  hostWhole := List.all_iff_forall_prop.mp (by decide)
  pathBegins := nofun
  pathWhole := nofun

def userAlone : Userinfo := ⟨"user".toList, List.all_iff_forall_prop.mp (by decide)⟩

def secretTail : Tail := ⟨"?token=a@SECRET".toList, fun _ front => .inl (Option.some.inj front).symm⟩

def otherTail : Tail := ⟨"?token=a@OTHER".toList, fun _ front => .inl (Option.some.inj front).symm⟩

theorem tails_told_apart :
    redactGitUrl id (unclosed.url userAlone secretTail) ≠ redactGitUrl id (unclosed.url userAlone otherTail) := by
  decide

/-- What follows an at sign in the query of a URL with a malformed host is recorded. -/
theorem query_recorded : ¬∀ (nfkc : List Char → List Char) (location : Location) (first second : Userinfo)
    (tail tail' : Tail), Alike location first second →
      redactGitUrl nfkc (location.url first tail) = redactGitUrl nfkc (location.url second tail') := by
  intro same
  exact tails_told_apart (same id unclosed userAlone userAlone secretTail otherTail (.inr rfl))

end AibomWebhook.GitUrl
