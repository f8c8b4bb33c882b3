import AibomWebhook.Library.PyText
import Mathlib.Data.Bool.AllAny
import Mathlib.Data.List.Infix

/-! Python's `urllib.parse`, with the texts on which it raises `ValueError`, and what `urllib.request` makes of a URL. -/

namespace PyUrl

/-- `text.partition(mark)[0]`. -/
def before (mark : Char) (text : List Char) : List Char := text.takeWhile (· != mark)

/-- `text.partition(mark)[2]`. -/
def after (mark : Char) (text : List Char) : List Char := (text.dropWhile (· != mark)).tail

/-- `text.rpartition(mark)[0]`, in a text with the mark. -/
def beforeLast (mark : Char) (text : List Char) : List Char := (text.rdropWhile (· != mark)).dropLast

/-- `text.rpartition(mark)[2]`. -/
def afterLast (mark : Char) (text : List Char) : List Char := text.rtakeWhile (· != mark)

/-- `_WHATWG_C0_CONTROL_OR_SPACE`. -/
def isControlOrSpace (c : Char) : Bool := c.toNat ≤ 32

/-- `_UNSAFE_URL_BYTES_TO_REMOVE`. -/
def isUnsafe (c : Char) : Bool := c == '\t' || c == '\r' || c == '\n'

def clean (text : List Char) : List Char := text.filter fun c => !isUnsafe c

/-- `scheme_chars`. -/
def isSchemeChar (c : Char) : Bool := c.isAlphanum || c == '+' || c == '-' || c == '.'

/-- Whether the text in front of the first colon is a scheme. -/
def isScheme (name : List Char) : Bool :=
  match name with
  | [] => false
  | first :: _ => first.isAlpha && name.all isSchemeChar

/-- The scheme in lower case and what follows its colon. -/
def splitScheme (url : List Char) : List Char × List Char :=
  if ':' ∈ url && isScheme (before ':' url) then ((before ':' url).map Char.toLower, after ':' url) else ([], url)

/-- The characters that end the netloc. -/
def endsNetloc (c : Char) : Bool := c == '/' || c == '?' || c == '#'

/-! The host in brackets. -/

def isHexDigit (c : Char) : Bool := c.isDigit || ('a' ≤ c && c ≤ 'f') || ('A' ≤ c && c ≤ 'F')

/-- What `IPv4Address._parse_octet` accepts. -/
def isOctet (octet : List Char) : Bool :=
  octet ≠ [] && octet.all Char.isDigit && octet.length ≤ 3 && (octet = ['0'] || octet.head? ≠ some '0') &&
    octet.foldl (fun n c => 10 * n + (c.toNat - '0'.toNat)) 0 ≤ 255

/-- What `IPv4Address` accepts. -/
def isIpv4 (address : List Char) : Bool :=
  let octets := address.splitOn '.'
  octets.length = 4 && octets.all isOctet

/-- What `IPv6Address._parse_hextet` accepts. -/
def isHextet (hextet : List Char) : Bool := hextet ≠ [] && hextet.all isHexDigit && hextet.length ≤ 4

/-- The parts of an IPv6 address without an IPv4 suffix. -/
def areHextets (parts : List (List Char)) : Bool :=
  let inner := parts.tail.dropLast
  parts.length ≤ 9 &&
    match inner.findIdx? (· = []) with
    | none => parts.length = 8 && parts.all isHextet
    | some i =>
      let skip := i + 1
      let high := if parts.head? = some [] then skip - 1 else skip
      let low := if parts.getLast? = some [] then parts.length - skip - 2 else parts.length - skip - 1
      inner.count [] = 1 &&
        (parts.head? ≠ some [] || high = 0) && (parts.getLast? ≠ some [] || low = 0) &&
        high + low < 8 && (parts.take high).all isHextet && (parts.drop (parts.length - low)).all isHextet

/-- What `IPv6Address` accepts. -/
def isIpv6 (address : List Char) : Bool :=
  let digits := before '%' address
  let scope := after '%' address
  let parts := digits.splitOn ':'
  let suffix := parts.getLastD []
  !address.contains '/' && (!address.contains '%' || (scope ≠ [] && !scope.contains '%')) && 3 ≤ parts.length &&
    -- an IPv4 suffix counts as the two hextets of its value
    if suffix.contains '.' then isIpv4 suffix && areHextets (parts.dropLast ++ [['0'], ['0']]) else areHextets parts

/-- What `_check_bracketed_host` accepts. -/
def isBracketedHost (host : List Char) : Bool :=
  match host with
  | 'v' :: version =>
    let address := after '.' version
    version.contains '.' && before '.' version ≠ [] && (before '.' version).all isHexDigit && address ≠ [] &&
      !address.contains '\n'
  | _ => isIpv6 host

/-- What `_check_bracketed_netloc` accepts. -/
def isBracketedNetloc (netloc : List Char) : Bool :=
  let hostAndPort := afterLast '@' netloc
  if hostAndPort.contains '[' then
    let bracketed := after '[' hostAndPort
    let port := after ']' bracketed
    before '[' hostAndPort = [] && (port = [] || port.head? = some ':') && isBracketedHost (before ']' bracketed)
  else isBracketedHost (before ':' hostAndPort)

section

-- `unicodedata.normalize('NFKC', _)`
variable (nfkc : List Char → List Char)

/-- What `_checknetloc` accepts. -/
def checkNetloc (netloc : List Char) : Bool :=
  let n := netloc.filter fun c => !(c == '@' || c == ':' || c == '#' || c == '?')
  netloc.all (·.toNat < 128) || nfkc n = n ||
    (nfkc n).all fun c => !(c == '/' || c == '?' || c == '#' || c == '@' || c == ':')

/-- The checks of a netloc: one that fails raises `ValueError`. -/
def isNetloc (netloc : List Char) : Bool :=
  (netloc.contains '[' == netloc.contains ']') && (!netloc.contains '[' || isBracketedNetloc netloc) &&
    checkNetloc nfkc netloc

structure SplitResult where
  scheme : List Char
  netloc : List Char
  path : List Char
  query : List Char
  fragment : List Char

/-- The path, the query and the fragment. -/
def splitRest (scheme netloc rest : List Char) : SplitResult :=
  let url := before '#' rest
  { scheme, netloc, path := before '?' url, query := after '?' url, fragment := after '#' rest }

/-- `urlsplit`: `none` is a `ValueError`. -/
def urlsplit (url : List Char) : Option SplitResult :=
  let url := clean (url.dropWhile isControlOrSpace)
  let scheme := (splitScheme url).1
  match (splitScheme url).2 with
  | '/' :: '/' :: rest =>
    let netloc := rest.takeWhile fun c => !endsNetloc c
    if isNetloc nfkc netloc then some (splitRest scheme netloc (rest.dropWhile fun c => !endsNetloc c)) else none
  | rest => some (splitRest scheme [] rest)

/-! Marks and the texts around them. -/

variable {mark : Char} {text rest : List Char}

theorem before_append (free : mark ∉ text) : before mark (text ++ rest) = text ++ before mark rest := by
  apply List.takeWhile_append_of_pos
  intro c inside
  simpa using ne_of_mem_of_not_mem inside free

theorem before_mark (free : mark ∉ text) : before mark (text ++ mark :: rest) = text := by
  rw [before_append free]
  simp [before]

theorem after_mark (free : mark ∉ text) : after mark (text ++ mark :: rest) = rest := by
  have skipped : (text ++ mark :: rest).dropWhile (· != mark) = mark :: rest := by
    rw [List.dropWhile_append_of_pos fun c inside => by simpa using ne_of_mem_of_not_mem inside free]
    simp
  rw [after, skipped, List.tail_cons]

theorem afterLast_mark (free : mark ∉ rest) : afterLast mark (text ++ mark :: rest) = rest := by
  have reversed : (text ++ mark :: rest).reverse = rest.reverse ++ mark :: text.reverse := by simp
  rw [afterLast, List.rtakeWhile, reversed]
  rw [List.takeWhile_append_of_pos fun c inside => by
    simpa using ne_of_mem_of_not_mem (List.mem_reverse.mp inside) free]
  simp

theorem beforeLast_mark (free : mark ∉ rest) : beforeLast mark (text ++ mark :: rest) = text := by
  have reversed : (text ++ mark :: rest).reverse = rest.reverse ++ mark :: text.reverse := by simp
  rw [beforeLast, List.rdropWhile, reversed]
  rw [List.dropWhile_append_of_pos fun c inside => by
    simpa using ne_of_mem_of_not_mem (List.mem_reverse.mp inside) free]
  simp

/-! What the cleaning keeps. -/

@[simp]
theorem clean_append (first second : List Char) : clean (first ++ second) = clean first ++ clean second := by
  simp [clean]

theorem clean_cons {c : Char} (safe : isUnsafe c = false) (text : List Char) : clean (c :: text) = c :: clean text := by
  simp [clean, safe]

theorem mem_clean {c : Char} : c ∈ clean text ↔ c ∈ text ∧ isUnsafe c = false := by
  simp [clean]

theorem clean_eq_self : clean text = text ↔ ∀ c ∈ text, isUnsafe c = false := by
  simp [clean]

/-- What `urlsplit` reads of the text in front of the first colon. -/
def schemeName (name : List Char) : List Char := clean (name.dropWhile isControlOrSpace)

theorem mem_of_mem_schemeName {c : Char} {name : List Char} (inside : c ∈ schemeName name) : c ∈ name :=
  (List.dropWhile_sublist _).subset (mem_clean.mp inside).1

theorem cleaned_url (name : List Char) (rest : List Char) :
    clean ((name ++ ':' :: rest).dropWhile isControlOrSpace) = schemeName name ++ ':' :: clean rest := by
  have stripped : (name ++ ':' :: rest).dropWhile isControlOrSpace = name.dropWhile isControlOrSpace ++ ':' :: rest := by
    rw [List.dropWhile_append]
    cases skipped : name.dropWhile isControlOrSpace with
    | nil => simp [isControlOrSpace]
    | cons c more => simp
  rw [stripped, clean_append, clean_cons (by decide)]
  rfl

theorem splitScheme_named {name : List Char} (unmarked : ':' ∉ name) (named : isScheme name = true) (rest : List Char) :
    splitScheme (name ++ ':' :: rest) = (name.map Char.toLower, rest) := by
  unfold splitScheme
  rw [before_mark unmarked, after_mark unmarked, named]
  simp

theorem splitScheme_unnamed {name : List Char} (unmarked : ':' ∉ name) (unnamed : isScheme name = false)
    (rest : List Char) : splitScheme (name ++ ':' :: rest) = ([], name ++ ':' :: rest) := by
  unfold splitScheme
  rw [before_mark unmarked, unnamed]
  simp

/-- The netloc of a URL ends where the text after it begins. -/
theorem netloc_split {netloc rest : List Char} (whole : ∀ c ∈ netloc, endsNetloc c = false)
    (begins : ∀ c ∈ rest.head?, endsNetloc c = true) :
    (netloc ++ rest).takeWhile (fun c => !endsNetloc c) = netloc ∧
      (netloc ++ rest).dropWhile (fun c => !endsNetloc c) = rest := by
  have inside : ∀ c ∈ netloc, (!endsNetloc c) = true := by
    intro c mem
    simp [whole c mem]
  rw [List.takeWhile_append_of_pos inside, List.dropWhile_append_of_pos inside]
  cases rest with
  | nil => simp
  | cons c more =>
    have ends : endsNetloc c = true := begins c rfl
    simp [ends]

theorem clean_begins {rest : List Char} (begins : ∀ c ∈ rest.head?, endsNetloc c = true) :
    ∀ c ∈ (clean rest).head?, endsNetloc c = true := by
  cases rest with
  | nil => simp [clean]
  | cons c more =>
    have ends : endsNetloc c = true := begins c rfl
    have safe : isUnsafe c = false := by
      simp only [endsNetloc, Bool.or_eq_true, beq_iff_eq] at ends
      rcases ends with (rfl | rfl) | rfl <;> decide
    simp [clean_cons safe, ends]

/-- A URL with a scheme raises `ValueError` exactly when its netloc fails a check. -/
theorem urlsplit_named {name netloc rest : List Char} (unmarked : ':' ∉ name) (named : isScheme (schemeName name) = true)
    (whole : ∀ c ∈ netloc, endsNetloc c = false) (begins : ∀ c ∈ rest.head?, endsNetloc c = true) :
    urlsplit nfkc (name ++ ':' :: '/' :: '/' :: (netloc ++ rest)) =
      if isNetloc nfkc (clean netloc) then
        some (splitRest ((schemeName name).map Char.toLower) (clean netloc) (clean rest)) else none := by
  have cleaned : clean ('/' :: '/' :: (netloc ++ rest)) = '/' :: '/' :: (clean netloc ++ clean rest) := by
    rw [clean_cons (by decide), clean_cons (by decide), clean_append]
  have unmarked' : ':' ∉ schemeName name := fun inside => unmarked (mem_of_mem_schemeName inside)
  have parts := netloc_split (fun c inside => whole c (mem_clean.mp inside).1) (clean_begins begins)
  unfold urlsplit
  simp only [cleaned_url, cleaned, splitScheme_named unmarked' named, parts.1, parts.2]

/-- Without a scheme the whole URL is a path. -/
theorem urlsplit_unnamed {name rest : List Char} (unmarked : ':' ∉ name) (unslashed : '/' ∉ name)
    (unnamed : isScheme (schemeName name) = false) :
    urlsplit nfkc (name ++ ':' :: rest) = some (splitRest [] [] (schemeName name ++ ':' :: clean rest)) := by
  have unmarked' : ':' ∉ schemeName name := fun inside => unmarked (mem_of_mem_schemeName inside)
  have unslashed' : '/' ∉ schemeName name := fun inside => unslashed (mem_of_mem_schemeName inside)
  unfold urlsplit
  simp only [cleaned_url, splitScheme_unnamed unmarked' unnamed]
  cases read : schemeName name with
  | nil => rfl
  | cons c more =>
    have other : c ≠ '/' := by
      rintro rfl
      exact unslashed' (by simp [read])
    split
    · rename_i slashed
      simp only [List.cons_append, List.cons.injEq] at slashed
      exact absurd slashed.1 other
    · rfl

/-- The path ends at the first question mark or number sign. -/
theorem splitRest_path (scheme netloc : List Char) {path tail : List Char} (whole : ∀ c ∈ path, c ≠ '?' ∧ c ≠ '#')
    (begins : ∀ c ∈ tail.head?, c = '?' ∨ c = '#') : (splitRest scheme netloc (path ++ tail)).path = path := by
  have unmarked : '?' ∉ path := fun inside => (whole _ inside).1 rfl
  have unnumbered : '#' ∉ path := fun inside => (whole _ inside).2 rfl
  change before '?' (before '#' (path ++ tail)) = path
  rw [before_append unnumbered, before_append unmarked]
  cases tail with
  | nil => simp [before]
  | cons c more =>
    rcases begins c rfl with rfl | rfl <;> simp [before]

/-! Joining a URL and a reference. -/

/-- A text is found in a list of texts. -/
instance lawfulText : LawfulBEq (List Char) := inferInstance

def usesRelative : List (List Char) := ["", "ftp", "http", "gopher", "nntp", "imap", "wais", "file", "https", "shttp", "mms",
  "prospero", "rtsp", "rtsps", "rtspu", "sftp", "svn", "svn+ssh", "ws", "wss"].map String.toList

def usesParams : List (List Char) := ["", "ftp", "hdl", "prospero", "http", "imap", "https", "shttp", "rtsp", "rtsps",
  "rtspu", "sip", "sips", "mms", "sftp", "tel"].map String.toList

/-- `_splitparams`, of a path of a scheme: the parameters of its last segment. -/
def splitParams (scheme path : List Char) : List Char × List Char :=
  let last := afterLast '/' path
  if scheme ∈ usesParams ∧ ';' ∈ last then (path.rdropWhile (· != '/') ++ before ';' last, after ';' last) else (path, [])

/-- `urlunparse`, of a scheme that `usesRelative` has. -/
def urlunparse (scheme netloc path params query fragment : List Char) : List Char :=
  let url := if params = [] then path else path ++ ';' :: params
  let url :=
    if netloc ≠ [] then '/' :: '/' :: netloc ++ (if url ≠ [] ∧ url.head? ≠ some '/' then '/' :: url else url)
    else if url.take 2 = ['/', '/'] ∨ (scheme ≠ [] ∧ (url = [] ∨ url.head? = some '/')) then '/' :: '/' :: url
    else url
  let url := if scheme = [] then url else scheme ++ ':' :: url
  let url := if query = [] then url else url ++ '?' :: query
  if fragment = [] then url else url ++ '#' :: fragment

/-- Without the dot segments. -/
def resolve (segments : List (List Char)) : List (List Char) :=
  let resolved := segments.foldl (fun done segment =>
    if segment = "..".toList then done.dropLast else if segment = ".".toList then done else done ++ [segment]) []
  if segments.getLastD [] = "..".toList ∨ segments.getLastD [] = ".".toList then resolved ++ [[]] else resolved

/-- The segments of a path that starts where the base's path ends. -/
def mergePaths (base path : List Char) : List (List Char) :=
  if path.head? = some '/' then path.splitOn '/'
  else
    let baseParts := base.splitOn '/'
    let segments := (if baseParts.getLastD [] = [] then baseParts else baseParts.dropLast) ++ path.splitOn '/'
    segments.take 1 ++ (segments.tail.dropLast.filter (· ≠ [])) ++ (segments.tail.getLast?).toList

/-- `urljoin`. -/
def urljoin (base url : List Char) : Option (List Char) :=
  if base = [] then some url
  else if url = [] then some base
  else do
    let b ← urlsplit nfkc base
    let u ← urlsplit nfkc url
    let scheme := if u.scheme = [] then b.scheme else u.scheme
    let (path, params) := splitParams scheme u.path
    let (basePath, baseParams) := splitParams b.scheme b.path
    if scheme ≠ b.scheme ∨ scheme ∉ usesRelative then some url
    else if u.netloc ≠ [] then some (urlunparse scheme u.netloc path params u.query u.fragment)
    else if path = [] ∧ params = [] then
      some (urlunparse scheme b.netloc basePath baseParams (if u.query = [] then b.query else u.query) u.fragment)
    else
      let joined := ['/'].intercalate (resolve (mergePaths basePath path))
      some (urlunparse scheme b.netloc (if joined = [] then ['/'] else joined) params u.query u.fragment)

end

/-! The request for a URL. -/

/-- `unwrap`. -/
def unwrap (url : List Char) : List Char :=
  let strip (text : List Char) := (text.dropWhile PyText.isSpace).rdropWhile PyText.isSpace
  let url := strip url
  let url := if url.head? = some '<' ∧ url.getLast? = some '>' then strip url.tail.dropLast else url
  if url.take 4 = "URL:".toList then strip (url.drop 4) else url

/-- `_splittag`, without the tag. -/
def splitTag (url : List Char) : List Char := if '#' ∈ url then beforeLast '#' url else url

/-- The scheme and the host of a `Request`, as it reads them: no host is an error. -/
def requestTarget (unquote : List Char → List Char) (url : List Char) : Option (List Char × List Char) :=
  let url := splitTag (unwrap url)
  let scheme := url.takeWhile fun c => c != ':' && c != '/'
  match url.drop scheme.length with
  | ':' :: '/' :: '/' :: rest =>
    let host := rest.takeWhile fun c => !endsNetloc c
    if scheme = [] ∨ host = [] then none else some (scheme.map Char.toLower, unquote host)
  | _ => none

/-- A host that `http.client` refuses to connect to has a control character or a space. -/
def isRefused (host : List Char) : Bool := host.any fun c => c.toNat ≤ 32 || c.toNat == 127

/-! A URL of a host, as both read it. -/

section
variable {host rest : List Char}

theorem begins_of_prefix {start : List Char} (begins : ∀ c ∈ rest.head?, endsNetloc c = true) (shorter : start <+: rest) :
    ∀ c ∈ start.head?, endsNetloc c = true := by
  obtain ⟨more, rfl⟩ := shorter
  cases start with
  | nil => simp
  | cons d left => simpa using begins

/-- Dropping from the end stops at a text that ends otherwise. -/
theorem rdropWhile_append_of_last {p : Char → Bool} {text : List Char} (last : ∀ c ∈ text.getLast?, p c = false)
    (nonempty : text ≠ []) (rest : List Char) : (text ++ rest).rdropWhile p = text ++ rest.rdropWhile p := by
  induction rest using List.reverseRecOn with
  | nil =>
    rw [List.append_nil, List.rdropWhile_nil, List.append_nil, List.rdropWhile_eq_self_iff]
    intro _
    simp [last _ (List.getLast?_eq_some_getLast nonempty)]
  | append_singleton more c ih =>
    rw [← List.append_assoc, List.rdropWhile_concat, List.rdropWhile_concat]
    split
    · exact ih
    · exact List.append_assoc _ _ _

theorem beforeLast_starts (mark : Char) (text : List Char) : beforeLast mark text <+: text :=
  (List.dropLast_prefix _).trans (List.rdropWhile_prefix _ _)

theorem rdropWhile_append_of_left {p : Char → Bool} (text : List Char) {rest : List Char}
    (left : rest.rdropWhile p ≠ []) : (text ++ rest).rdropWhile p = text ++ rest.rdropWhile p := by
  induction rest using List.reverseRecOn with
  | nil => exact absurd (List.rdropWhile_nil p) left
  | append_singleton more c ih =>
    rw [List.rdropWhile_concat] at left
    rw [← List.append_assoc, List.rdropWhile_concat, List.rdropWhile_concat]
    split
    · rename_i dropped
      rw [if_pos dropped] at left
      exact ih left
    · exact List.append_assoc _ _ _

theorem beforeLast_append {mark : Char} {rest : List Char} (text : List Char) (marked : mark ∈ rest) :
    beforeLast mark (text ++ rest) = text ++ beforeLast mark rest := by
  have left : rest.rdropWhile (· != mark) ≠ [] := by
    rw [ne_eq, List.rdropWhile_eq_nil_iff]
    intro free
    simpa using free mark marked
  rw [beforeLast, rdropWhile_append_of_left text left, List.dropLast_append_of_ne_nil left]
  rfl

/-- The request for a URL goes to the host that the URL names. -/
theorem requestTarget_host (unquote : List Char → List Char) (some' : host ≠ [])
    (whole : ∀ c ∈ host, endsNetloc c = false) (visible : ∀ c ∈ host.getLast?, PyText.isSpace c = false)
    (begins : ∀ c ∈ rest.head?, endsNetloc c = true) :
    requestTarget unquote ("https".toList ++ ':' :: '/' :: '/' :: (host ++ rest)) =
      some ("https".toList, unquote host) := by
  have stripped : unwrap (("https://".toList ++ host) ++ rest) =
      ("https://".toList ++ host) ++ rest.rdropWhile PyText.isSpace := by
    have last : ∀ c ∈ ("https://".toList ++ host).getLast?, PyText.isSpace c = false := by
      rw [List.getLast?_append_of_ne_nil _ some']
      exact visible
    have cut := rdropWhile_append_of_last last (by simp) rest
    have front : (("https://".toList ++ host) ++ rest).dropWhile PyText.isSpace = ("https://".toList ++ host) ++ rest := rfl
    unfold unwrap
    simp only [front, cut]
    rfl
  have kept : ∀ c ∈ (rest.rdropWhile PyText.isSpace).head?, endsNetloc c = true :=
    begins_of_prefix begins (List.rdropWhile_prefix _ _)
  have untagged : ∃ left, (∀ c ∈ left.head?, endsNetloc c = true) ∧
      splitTag (("https://".toList ++ host) ++ rest.rdropWhile PyText.isSpace) = ("https://".toList ++ host) ++ left := by
    have unmarked : '#' ∉ "https://".toList ++ host := by
      rw [List.mem_append]
      rintro (inside | inside)
      · exact absurd inside (by decide)
      · exact absurd (whole _ inside) (by decide)
    by_cases tagged : '#' ∈ rest.rdropWhile PyText.isSpace
    · refine ⟨beforeLast '#' (rest.rdropWhile PyText.isSpace), begins_of_prefix kept (beforeLast_starts _ _), ?_⟩
      rw [splitTag, if_pos (List.mem_append_right _ tagged), beforeLast_append _ tagged]
    · refine ⟨_, kept, ?_⟩
      rw [splitTag, if_neg]
      rw [List.mem_append]
      exact not_or_intro unmarked tagged
  obtain ⟨left, begins', cut⟩ := untagged
  have url : "https".toList ++ ':' :: '/' :: '/' :: (host ++ rest) = ("https://".toList ++ host) ++ rest := by simp
  rw [url, requestTarget]
  simp only [stripped, cut]
  have scheme : (("https://".toList ++ host) ++ left).takeWhile (fun c => c != ':' && c != '/') = "https".toList := rfl
  have after' : (("https://".toList ++ host) ++ left).drop ("https".toList).length = ':' :: '/' :: '/' :: (host ++ left) := rfl
  simp only [scheme, after', (netloc_split whole begins').1]
  simp [some']

theorem splitScheme_safe (url : List Char) : ∀ c ∈ (splitScheme (clean url)).2, isUnsafe c = false := by
  intro c inside
  unfold splitScheme at inside
  split at inside
  · exact (mem_clean.mp ((List.dropWhile_sublist _).subset (List.mem_of_mem_tail inside))).2
  · exact (mem_clean.mp inside).2

/-- A netloc is free of what ends it and of what the cleaning takes out. -/
theorem urlsplit_netloc {nfkc : List Char → List Char} {url : List Char} {parts : SplitResult}
    (split : urlsplit nfkc url = some parts) : ∀ c ∈ parts.netloc, endsNetloc c = false ∧ isUnsafe c = false := by
  intro c inside
  unfold urlsplit at split
  simp only at split
  split at split
  · rename_i rest slashed
    split at split
    · obtain rfl := Option.some.inj split
      have mem : c ∈ rest := (List.takeWhile_sublist _).subset inside
      constructor
      · simpa using List.mem_takeWhile_imp inside
      · exact splitScheme_safe (url.dropWhile isControlOrSpace) c (by simp [slashed, mem])
    · exact absurd split (by simp)
  · obtain rfl := Option.some.inj split
    exact absurd inside (List.not_mem_nil)

/-- Whatever follows the netloc in a written URL ends it. -/
theorem urlunparse_host {netloc : List Char} (hosted : netloc ≠ []) (path params query fragment : List Char) :
    ∃ rest, (∀ c ∈ rest.head?, endsNetloc c = true) ∧
      urlunparse "https".toList netloc path params query fragment =
        "https".toList ++ ':' :: '/' :: '/' :: (netloc ++ rest) := by
  let url := if params = [] then path else path ++ ';' :: params
  let slashed := if url ≠ [] ∧ url.head? ≠ some '/' then '/' :: url else url
  let tail := (if query = [] then [] else '?' :: query) ++ (if fragment = [] then [] else '#' :: fragment)
  have slashed_begins : ∀ c ∈ slashed.head?, endsNetloc c = true := by
    intro c first
    have slash : c = '/' := by
      by_cases bare : url ≠ [] ∧ url.head? ≠ some '/'
      · have written : slashed = '/' :: url := if_pos bare
        rw [written] at first
        simpa using first.symm
      · have written : slashed = url := if_neg bare
        rw [written] at first
        by_contra other
        apply bare
        rw [Option.mem_def] at first
        refine ⟨fun empty => by simp [empty] at first, fun slash => other ?_⟩
        rw [slash] at first
        exact (Option.some.inj first).symm
    rw [slash]
    decide
  have tail_begins : ∀ c ∈ tail.head?, endsNetloc c = true := by
    intro c first
    by_cases asked : query = []
    · by_cases tagged : fragment = []
      · simp [tail, asked, tagged] at first
      · have mark : c = '#' := by simpa [tail, asked, tagged] using first.symm
        rw [mark]
        decide
    · have mark : c = '?' := by simpa [tail, asked] using first.symm
      rw [mark]
      decide
  refine ⟨slashed ++ tail, ?_, ?_⟩
  · intro c first
    rcases path' : slashed with _ | ⟨d, more⟩
    · rw [path', List.nil_append] at first
      exact tail_begins c first
    · rw [path'] at first
      exact slashed_begins c (by simpa [path'] using first)
  · have written : urlunparse "https".toList netloc path params query fragment =
        ("https".toList ++ ':' :: ('/' :: '/' :: netloc ++ slashed)) ++ tail := by
      have schemed : "https".toList ≠ [] := by decide
      unfold urlunparse
      simp only [if_pos hosted, if_neg schemed]
      by_cases asked : query = [] <;> by_cases tagged : fragment = [] <;> simp [tail, slashed, url, asked, tagged]
    rw [written]
    simp

/-- A reference leads to another scheme, or to the netloc that it names or else to that of the base. -/
theorem urljoin_host {nfkc : List Char → List Char} {base url target : List Char} {b : SplitResult} (based : base ≠ [])
    (split : urlsplit nfkc base = some b) (https : b.scheme = "https".toList) (hosted : b.netloc ≠ [])
    (referred : url ≠ []) (joined : urljoin nfkc base url = some target) :
    (∃ parts, urlsplit nfkc target = some parts ∧ parts.scheme ≠ "https".toList) ∨
      ∃ netloc rest, netloc ≠ [] ∧ (∀ c ∈ netloc, endsNetloc c = false ∧ isUnsafe c = false) ∧
        (∀ c ∈ rest.head?, endsNetloc c = true) ∧
        target = "https".toList ++ ':' :: '/' :: '/' :: (netloc ++ rest) := by
  unfold urljoin at joined
  rw [if_neg based, if_neg referred, split] at joined
  cases referred' : urlsplit nfkc url with
  | none => simp [referred'] at joined
  | some u =>
    simp only [referred', Option.bind_eq_bind, Option.bind_some, https] at joined
    generalize named : (if u.scheme = [] then "https".toList else u.scheme) = scheme at joined
    by_cases same : scheme = "https".toList
    · have relative : ¬(scheme ≠ "https".toList ∨ scheme ∉ usesRelative) := by
        rw [same]
        decide
      rw [if_neg relative, same] at joined
      have written {netloc path params query fragment : List Char} (some' : netloc ≠ [])
          (whole : ∀ c ∈ netloc, endsNetloc c = false ∧ isUnsafe c = false)
          (made : some (urlunparse "https".toList netloc path params query fragment) = some target) :
          ∃ netloc rest, netloc ≠ [] ∧ (∀ c ∈ netloc, endsNetloc c = false ∧ isUnsafe c = false) ∧
            (∀ c ∈ rest.head?, endsNetloc c = true) ∧
            target = "https".toList ++ ':' :: '/' :: '/' :: (netloc ++ rest) := by
        obtain ⟨rest, begins, text⟩ := urlunparse_host some' path params query fragment
        exact ⟨netloc, rest, some', whole, begins, (Option.some.inj made).symm.trans text⟩
      right
      split at joined
      · rename_i elsewhere
        exact written elsewhere (urlsplit_netloc referred') joined
      · split at joined
        · exact written hosted (urlsplit_netloc split) joined
        · exact written hosted (urlsplit_netloc split) joined
    · rw [if_pos (Or.inl same)] at joined
      obtain rfl := Option.some.inj joined
      refine Or.inl ⟨u, referred', fun https' => same ?_⟩
      rw [← named, https']
      rfl

end

/-! What the split of any URL is like. -/

section
variable {nfkc : List Char → List Char} {url : List Char} {parts : SplitResult}

/-- Only letters have another lower case, and it is a letter without another. -/
theorem toLower_cases (c : Char) : c.toLower = c ∨ c.toLower.isAlpha = true ∧ c.toLower.toLower = c.toLower := by
  by_cases upper : c.val ≥ 'A'.val ∧ c.val ≤ 'Z'.val
  · right
    have low : 65 ≤ c.val.toNat := upper.1
    have high : c.val.toNat ≤ 90 := upper.2
    have moved : c.toLower.val.toNat = c.val.toNat + 32 := by
      delta Char.toLower
      rw [dif_pos upper]
      change (c.val + ('a'.val - 'A'.val)).toNat = _
      have distance : ('a'.val - 'A'.val).toNat = 32 := rfl
      rw [UInt32.toNat_add, distance]
      omega
    have letter : c.toLower.isLower = true := by
      delta Char.isLower
      simp only [Bool.and_eq_true, decide_eq_true_eq, ge_iff_le, UInt32.le_iff_toNat_le, moved]
      change 97 ≤ c.val.toNat + 32 ∧ c.val.toNat + 32 ≤ 122
      omega
    refine ⟨Bool.or_eq_true_iff.mpr (Or.inr letter), ?_⟩
    have above : ¬(c.toLower.val ≥ 'A'.val ∧ c.toLower.val ≤ 'Z'.val) := by
      intro small
      have bound : c.toLower.val.toNat ≤ 90 := small.2
      omega
    generalize c.toLower = d at above
    delta Char.toLower
    rw [dif_neg above]
  · left
    delta Char.toLower
    rw [dif_neg upper]

theorem toLower_isSchemeChar {c : Char} (valid : isSchemeChar c = true) : isSchemeChar c.toLower = true := by
  rcases toLower_cases c with same | ⟨letter, -⟩
  · rwa [same]
  · simp [isSchemeChar, Char.isAlphanum, letter]

theorem isScheme_toLower {name : List Char} (named : isScheme name = true) : isScheme (name.map Char.toLower) = true := by
  cases name with
  | nil => exact named
  | cons first more =>
    simp only [isScheme, Bool.and_eq_true, List.all_eq_true] at named
    simp only [isScheme, List.map_cons, Bool.and_eq_true, List.all_eq_true]
    refine ⟨?_, fun c inside => ?_⟩
    · rcases toLower_cases first with same | ⟨letter, -⟩
      · rw [same]
        exact named.1
      · exact letter
    · rw [← List.map_cons, List.mem_map] at inside
      obtain ⟨d, mem, rfl⟩ := inside
      exact toLower_isSchemeChar (named.2 d mem)

theorem toLower_toLower (name : List Char) : (name.map Char.toLower).map Char.toLower = name.map Char.toLower := by
  rw [List.map_map]
  apply List.map_congr_left
  intro c _
  rcases toLower_cases c with same | ⟨-, lower⟩
  · simp [same]
  · exact lower

theorem not_mem_of_isScheme {name : List Char} (named : isScheme name = true) {c : Char} (other : isSchemeChar c = false) :
    c ∉ name := by
  cases name with
  | nil => simp
  | cons first more =>
    intro inside
    simp only [isScheme, Bool.and_eq_true, List.all_eq_true] at named
    rw [named.2 c inside] at other
    exact absurd other (by decide)

/-- A scheme is taken in lower case. -/
theorem urlsplit_scheme (split : urlsplit nfkc url = some parts) (schemed : parts.scheme ≠ []) :
    isScheme parts.scheme = true ∧ parts.scheme.map Char.toLower = parts.scheme := by
  have scheme : parts.scheme = (splitScheme (clean (url.dropWhile isControlOrSpace))).1 := by
    unfold urlsplit at split
    simp only at split
    split at split
    · split at split
      · rw [← Option.some.inj split]
        rfl
      · exact absurd split (by simp)
    · rw [← Option.some.inj split]
      rfl
  rw [scheme] at schemed ⊢
  unfold splitScheme at schemed ⊢
  split
  · rename_i named
    rw [Bool.and_eq_true] at named
    exact ⟨isScheme_toLower named.2, toLower_toLower _⟩
  · rename_i unnamed
    rw [if_neg unnamed] at schemed
    exact absurd rfl schemed

/-- A path has no mark of a query or a fragment, and begins with a slash behind a netloc. -/
theorem urlsplit_path (split : urlsplit nfkc url = some parts) :
    (∀ c ∈ parts.path, c ≠ '?' ∧ c ≠ '#' ∧ isUnsafe c = false) ∧
      (parts.netloc ≠ [] → ∀ c ∈ parts.path.head?, c = '/') := by
  have kept (scheme netloc rest : List Char) : ∀ c ∈ (splitRest scheme netloc rest).path, c ≠ '?' ∧ c ≠ '#' ∧ c ∈ rest := by
    intro c inside
    have unmarked : c ≠ '?' := by simpa using List.mem_takeWhile_imp inside
    have inside' : c ∈ before '#' rest := (List.takeWhile_sublist _).subset inside
    have unnumbered : c ≠ '#' := by simpa using List.mem_takeWhile_imp inside'
    exact ⟨unmarked, unnumbered, (List.takeWhile_sublist _).subset inside'⟩
  unfold urlsplit at split
  simp only at split
  split at split
  · rename_i rest slashed
    split at split
    · rw [← Option.some.inj split]
      refine ⟨fun c inside => ?_, fun _ c first => ?_⟩
      · obtain ⟨unmarked, unnumbered, mem⟩ := kept _ _ _ c inside
        have mem' : c ∈ rest := (List.dropWhile_sublist _).subset mem
        exact ⟨unmarked, unnumbered, splitScheme_safe (url.dropWhile isControlOrSpace) c (by simp [slashed, mem'])⟩
      · have ends : ∀ d ∈ (rest.dropWhile fun c => !endsNetloc c).head?, endsNetloc d = true := by
          intro d head
          have stops := List.head?_dropWhile_not (fun c => !endsNetloc c) rest
          rw [Option.mem_def] at head
          rw [head] at stops
          simpa using stops
        rcases left : rest.dropWhile (fun c => !endsNetloc c) with _ | ⟨d, more⟩
        · rw [left] at first
          exact absurd first (by simp [splitRest, before])
        · have mark : endsNetloc d = true := ends d (by rw [left]; rfl)
          rw [left] at first
          simp only [endsNetloc, Bool.or_eq_true, beq_iff_eq] at mark
          rcases mark with (rfl | rfl) | rfl
          · simpa [splitRest, before] using first.symm
          · simp [splitRest, before] at first
          · simp [splitRest, before] at first
    · exact absurd split (by simp)
  · rw [← Option.some.inj split]
    refine ⟨fun c inside => ?_, fun hosted => absurd rfl hosted⟩
    obtain ⟨unmarked, unnumbered, mem⟩ := kept _ _ _ c inside
    exact ⟨unmarked, unnumbered, splitScheme_safe _ c mem⟩

theorem schemeName_of_isScheme {name : List Char} (named : isScheme name = true) : schemeName name = name := by
  have safe : clean name = name := by
    rw [clean_eq_self]
    intro c inside
    by_contra removed
    simp only [isUnsafe, Bool.not_eq_false, Bool.or_eq_true, beq_iff_eq] at removed
    rcases removed with (rfl | rfl) | rfl <;> exact not_mem_of_isScheme named (by decide) inside
  cases name with
  | nil => exact absurd named (by decide)
  | cons first more =>
    have letter : first.isAlpha = true := by
      simp only [isScheme, Bool.and_eq_true] at named
      exact named.1
    have visible : ¬isControlOrSpace first = true := by
      intro control
      have small : first.val.toNat ≤ 32 := by simpa [isControlOrSpace] using control
      delta Char.isAlpha Char.isUpper Char.isLower at letter
      simp only [Bool.or_eq_true, Bool.and_eq_true, decide_eq_true_eq, ge_iff_le, UInt32.le_iff_toNat_le] at letter
      rcases letter with ⟨low, -⟩ | ⟨low, -⟩
      · have : 65 ≤ first.val.toNat := low
        omega
      · have : 97 ≤ first.val.toNat := low
        omega
    rw [schemeName, List.dropWhile_cons_of_neg visible, safe]

/-- A text with the mark is what stands in front of the last one and what stands behind it. -/
theorem beforeLast_afterLast {mark : Char} {text : List Char} (marked : mark ∈ text) :
    beforeLast mark text ++ mark :: afterLast mark text = text ∧ mark ∉ afterLast mark text := by
  induction text using List.reverseRecOn with
  | nil => exact absurd marked (by simp)
  | append_singleton more c ih =>
    by_cases last : c = mark
    · subst last
      have free : c ∉ ([] : List Char) := by simp
      rw [afterLast_mark free, beforeLast_mark free]
      exact ⟨rfl, free⟩
    · have inside : mark ∈ more := by
        rcases List.mem_append.mp marked with inside | single
        · exact inside
        · exact absurd (List.mem_singleton.mp single).symm last
      obtain ⟨whole, free⟩ := ih inside
      have free' : mark ∉ afterLast mark more ++ [c] := by
        rw [List.mem_append, List.mem_singleton]
        rintro (inside' | rfl)
        · exact free inside'
        · exact last rfl
      have split : more ++ [c] = beforeLast mark more ++ mark :: (afterLast mark more ++ [c]) := by
        rw [← List.cons_append, ← List.append_assoc, whole]
      rw [split, afterLast_mark free', beforeLast_mark free']
      exact ⟨rfl, free'⟩

/-! A URL that is cut at the mark of a query or a fragment. -/

theorem splitScheme_cut {c : Char} (ends : c = '?' ∨ c = '#') (kept tail : List Char) :
    splitScheme (kept ++ c :: tail) = ((splitScheme kept).1, (splitScheme kept).2 ++ c :: tail) := by
  have invalid : isSchemeChar c = false := by rcases ends with rfl | rfl <;> decide
  have other : c ≠ ':' := by rcases ends with rfl | rfl <;> decide
  by_cases colon : ':' ∈ kept
  · obtain ⟨name, rest, rfl, free⟩ := List.eq_append_cons_of_mem colon
    rw [List.append_assoc, List.cons_append]
    cases named : isScheme name with
    | true => rw [splitScheme_named free named, splitScheme_named free named]
    | false => rw [splitScheme_unnamed free named, splitScheme_unnamed free named, List.append_assoc, List.cons_append]
  · have unnamed : isScheme (before ':' (kept ++ c :: tail)) = false := by
      rw [before_append colon, Bool.eq_false_iff]
      intro named
      apply not_mem_of_isScheme named invalid
      simp [before, other]
    simp [splitScheme, unnamed, colon]

theorem takeWhile_cut {c : Char} {p : Char → Bool} (stops : p c = false) (kept tail : List Char) :
    (kept ++ c :: tail).takeWhile p = kept.takeWhile p := by
  induction kept with
  | nil => simp [stops]
  | cons d rest ih =>
    rw [List.cons_append, List.takeWhile_cons, List.takeWhile_cons, ih]

/-- The cut leaves the scheme and the netloc, and what they are checked for. -/
theorem urlsplit_cut {c : Char} (ends : c = '?' ∨ c = '#') (kept tail : List Char) {left : List Char}
    (removed : ∀ d ∈ left, isUnsafe d = true) :
    (urlsplit nfkc (kept ++ left)).map (fun parts => (parts.scheme, parts.netloc)) =
      (urlsplit nfkc (kept ++ c :: tail)).map fun parts => (parts.scheme, parts.netloc) := by
  have safe : isUnsafe c = false := by rcases ends with rfl | rfl <;> decide
  have visible : ¬isControlOrSpace c = true := by rcases ends with rfl | rfl <;> decide
  have gone : clean left = [] := by
    rw [clean, List.filter_eq_nil_iff]
    intro d inside
    simp [removed d inside]
  have control : left.dropWhile isControlOrSpace = [] := by
    rw [List.dropWhile_eq_nil_iff]
    intro d inside
    have unsafe' := removed d inside
    simp only [isUnsafe, Bool.or_eq_true, beq_iff_eq] at unsafe'
    rcases unsafe' with (rfl | rfl) | rfl <;> decide
  have shorter : clean ((kept ++ left).dropWhile isControlOrSpace) = clean (kept.dropWhile isControlOrSpace) := by
    rw [List.dropWhile_append]
    split
    · rename_i empty
      rw [control, List.isEmpty_iff.mp empty]
    · rw [clean_append, gone, List.append_nil]
  have longer : clean ((kept ++ c :: tail).dropWhile isControlOrSpace) =
      clean (kept.dropWhile isControlOrSpace) ++ c :: clean tail := by
    rw [List.dropWhile_append]
    split
    · rename_i empty
      rw [List.dropWhile_cons_of_neg visible, List.isEmpty_iff.mp empty, clean_cons safe]
      rfl
    · rw [clean_append, clean_cons safe]
  have slash : c ≠ '/' := by rcases ends with rfl | rfl <;> decide
  have stops : (!endsNetloc c) = false := by rcases ends with rfl | rfl <;> decide
  unfold urlsplit
  simp only [shorter, longer, splitScheme_cut ends]
  generalize (splitScheme (clean (kept.dropWhile isControlOrSpace))).1 = scheme
  generalize (splitScheme (clean (kept.dropWhile isControlOrSpace))).2 = rest
  by_cases slashed : ∃ authority, rest = '/' :: '/' :: authority
  · obtain ⟨authority, rfl⟩ := slashed
    simp only [List.cons_append, takeWhile_cut (p := fun c => !endsNetloc c) stops]
    split <;> rfl
  · have plain : ∀ authority, rest ++ c :: clean tail ≠ '/' :: '/' :: authority := by
      intro authority same
      rcases rest with _ | ⟨d, _ | ⟨e, more⟩⟩
      · exact slash (List.cons.inj same).1
      · exact slash (List.cons.inj (List.cons.inj same).2).1
      · obtain ⟨rfl, same'⟩ := List.cons.inj same
        exact slashed ⟨more, by rw [(List.cons.inj same').1]⟩
    split
    · exact absurd ⟨_, rfl⟩ slashed
    · rfl

end

end PyUrl
