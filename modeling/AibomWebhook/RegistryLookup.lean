import AibomWebhook.Library.Program
import AibomWebhook.Library.PyUrl
import AibomWebhook.Library.Sha256
import AibomWebhook.SafeGet

/-! The labels of an image, read from its registry. Whoever is at the other end answers each request as he likes. -/

namespace AibomWebhook.RegistryLookup

open PyUrl PyValue Requests Sha256

/-- A request as it is sent, with the bearer token in its header. -/
structure Fetch where
  url : List Char
  accept : Option String
  token : Option Value

inductive Answer where
  | body (bytes : Bytes)
  | httpError (code : Nat) (location challenge : Option (List Char))
  | failure

def Network : Interface where
  Request := Fetch
  Response := fun _ => Answer

/-- What a caller can tell of an exception. -/
inductive Raised where
  | httpError (code : Nat) (challenge : Option (List Char))
  | other

/-- The parts of Python that are read from tables. -/
structure Python where
  /-- `unicodedata.normalize('NFKC', _)`. -/
  nfkc : List Char → List Char
  /-- `urllib.parse.unquote`. -/
  unquote : List Char → List Char
  /-- `json.loads`, which raises on what is not JSON. -/
  loads : Bytes → Option Value
  /-- `str`, of a value that is not a text. -/
  str : Value → List Char

/-- Go on unless there was an exception. -/
def andThen {α β : Type} (first : Program Network (Except Raised α)) (rest : α → Program Network (Except Raised β)) :
    Program Network (Except Raised β) :=
  first >>= fun
    | .error raised => .done (.error raised)
    | .ok value => rest value

def registryMaxBytes : Nat := 4 * 1024 * 1024

def registryManifestAccept : String := ", ".intercalate [
  "application/vnd.oci.image.index.v1+json",
  "application/vnd.oci.image.manifest.v1+json",
  "application/vnd.docker.distribution.manifest.list.v2+json",
  "application/vnd.docker.distribution.manifest.v2+json"]

/-! The image reference. -/

/-- `re.sub(r"^[a-z-]+://", "", ref)`. -/
def dropTransport (ref : List Char) : List Char :=
  let transport := ref.takeWhile fun c => ('a' ≤ c && c ≤ 'z') || c == '-'
  match transport, ref.drop transport.length with
  | _ :: _, ':' :: '/' :: '/' :: rest => rest
  | _, _ => ref

/-- `_strip_tag_digest`. -/
def stripTagDigest (ref : List Char) : List Char :=
  let name := before '@' ref
  name.rdropWhile (· != '/') ++ before ':' (afterLast '/' name)

/-- The host that a name starts with, or else that of the default registry. -/
def hosted (name : List Char) : List Char × List Char :=
  let first := before '/' name
  let rest := after '/' name
  if rest ≠ [] ∧ ('.' ∈ first ∨ ':' ∈ first ∨ first = "localhost".toList) then (first, rest)
  else ("docker.io".toList, name)

/-- `_parse_image_ref`: the registry's host and the repository. -/
def parseImageRef (ref : List Char) : Option (List Char × List Char) :=
  let name := stripTagDigest (dropTransport ref)
  if name = [] ∨ "sha256".toList <+: name then none
  else
    let (host, repo) := hosted name
    if host = "docker.io".toList ∨ host = "index.docker.io".toList then
      some ("registry-1.docker.io".toList, if '/' ∈ repo then repo else "library/".toList ++ repo)
    else some (host, repo)

/-- `_image_digest`. -/
def imageDigest (imageId : List Char) : Option String :=
  if "@sha256:".toList <:+: imageId then some (String.ofList (afterLast '@' imageId)) else none

/-! Fetching. -/

section
variable (python : Python)

/-- `urllib` opens the URL: it reads an https scheme and a host that it can connect to. -/
def opens (url : List Char) : Bool :=
  match requestTarget python.unquote url with
  | none => false
  | some (scheme, host) => scheme = "https".toList && !isRefused host

def isRedirect (code : Nat) : Bool := code = 301 || code = 302 || code = 303 || code = 307 || code = 308

/-- Where a redirect leads, and the token that goes along: none to another netloc. -/
def redirected (url netloc location : List Char) (token : Option Value) : Option (List Char × Option Value) := do
  let target ← urljoin python.nfkc url location
  let there ← urlsplit python.nfkc target
  return (target, if there.netloc = netloc then token else none)

/-- One round of `_registry_get`: a redirect is left to `follow`, if another may be followed. -/
def registryRound (follow : Option (List Char → Option Value → Program Network (Except Raised Bytes))) (url : List Char)
    (accept : Option String) (token : Option Value) : Program Network (Except Raised Bytes) :=
  match urlsplit python.nfkc url with
  | none => .done (.error .other)
  | some parts =>
    if parts.scheme ≠ "https".toList ∨ opens python url = false then .done (.error .other)
    else
      .call ⟨url, accept, token⟩ fun
        | .failure => .done (.error .other)
        | .body bytes =>
          let body := bytes.take (registryMaxBytes + 1)
          .done (if body.length > registryMaxBytes then .error .other else .ok body)
        | .httpError code location challenge =>
          match follow, location with
          | some follow, some location =>
            if isRedirect code ∧ location ≠ [] then
              match redirected python url parts.netloc location token with
              | none => .done (.error .other)
              | some (target, token) => follow target token
            else .done (.error (.httpError code challenge))
          | _, _ => .done (.error (.httpError code challenge))

/-- `_registry_get`, with the redirects that it may still follow. -/
def registryGet : Nat → List Char → Option String → Option Value → Program Network (Except Raised Bytes)
  | 0, url, accept, token => registryRound python none url accept token
  | left + 1, url, accept, token =>
    registryRound python (some fun target token => registryGet left target accept token) url accept token

/-! The token. -/

/-- What `\w` matches among the characters of a header, which are those of Latin-1. -/
def isWord (c : Char) : Bool :=
  let n := c.toNat
  c.isAlphanum || c == '_' || n == 0xaa || n == 0xb2 || n == 0xb3 || n == 0xb5 || n == 0xb9 || n == 0xba ||
    (0xbc ≤ n && n ≤ 0xbe) || (0xc0 ≤ n && n ≤ 0xff && n != 0xd7 && n != 0xf7)

abbrev Params := Keyed (Prod.fst : List Char × List Char → List Char)

/-- `re.findall(r'(\w+)="([^"]*)"', challenge)`; each round passes a character at least. -/
def findParams : Nat → List Char → List (List Char × List Char)
  | 0, _ => []
  | rounds + 1, text =>
    let name := text.takeWhile isWord
    match name, text.drop name.length with
    | _ :: _, '=' :: '"' :: rest =>
      if '"' ∈ rest then (name, before '"' rest) :: findParams rounds (after '"' rest)
      else findParams rounds (text.drop 1)
    | _, _ => findParams rounds (text.drop 1)

def quoteDigit (n : Nat) : Char := if n < 10 then Char.ofNat (48 + n) else Char.ofNat (55 + n)

/-- `urllib.parse.quote_plus`. -/
def quotePlus (text : List Char) : List Char :=
  text.flatMap fun c =>
    if c.isAlphanum || c == '_' || c == '.' || c == '-' || c == '~' then [c]
    else if c = ' ' then ['+']
    else (String.utf8EncodeChar c).flatMap fun byte =>
      ['%', quoteDigit (byte.toNat / 16), quoteDigit (byte.toNat % 16)]

/-- `urllib.parse.urlencode`. -/
def urlencode (params : List (List Char × List Char)) : List Char :=
  ['&'].intercalate (params.map fun (name, value) => quotePlus name ++ '=' :: quotePlus value)

/-- `_registry_token`; none of the value is Python's `None`. -/
def registryToken (challenge repo : List Char) : Program Network (Except Raised Value) :=
  if ¬"bearer ".toList <+: challenge.map Char.toLower then .done (.ok .none)
  else
    let params : Params := Keyed.ofList (findParams challenge.length challenge)
    let realm := ((params.find? "realm".toList).map Prod.snd).getD []
    if realm = [] then .done (.ok .none)
    else
      let params := params.erase "realm".toList
      let params :=
        if (params.find? "scope".toList).isSome then params
        else params.put ("scope".toList, "repository:".toList ++ repo ++ ":pull".toList)
      let query := urlencode (params.items.filter fun param =>
        param.1 = "service".toList || param.1 = "scope".toList)
      let url := realm ++ (if '?' ∈ realm then '&' else '?') :: query
      andThen (registryGet python 3 url none none) fun body =>
        match (python.loads body).bind Value.asDict with
        | none => .done (.error .other)
        | some data =>
          let token := data.getD "token" .none
          .done (.ok (if token.truthy then token else data.getD "access_token" .none))

/-! Manifests and blobs. -/

/-- The digest of a content. -/
def digestOf (content : Bytes) : Value := .str ("sha256:" ++ encodeToString (sum256 content))

/-- The content of a body that has the digest. -/
def checked (digest : Value) (body : Bytes) : Except Raised Value :=
  if digestOf body = digest then
    match python.loads body with
    | none => .error .other
    | some content => .ok content
  else .error .other

/-- A value in an f-string. -/
def formatted : Value → List Char
  | .str value => value.toList
  | value => python.str value

/-- `_registry_blob`, which hands on the token that it has. -/
def registryBlob (host repo kind : List Char) (digest : Value) (auth : Option Value) :
    Program Network (Except Raised (Value × Option Value)) :=
  let url := "https://".toList ++ host ++ "/v2/".toList ++ repo ++ '/' :: kind ++ '/' :: formatted python digest
  let accept := if kind = "manifests".toList then some registryManifestAccept else none
  registryGet python 3 url accept auth >>= fun
    | .ok body => .done ((checked python digest body).map (·, auth))
    | .error (.httpError code challenge) =>
      if code ≠ 401 ∨ auth.isSome then .done (.error (.httpError code challenge))
      else
        andThen (registryToken python (challenge.getD []) repo) fun token =>
          if token.truthy = false then .done (.error (.httpError code challenge))
          else
            andThen (registryGet python 3 url accept (some token)) fun body =>
              .done ((checked python digest body).map (·, some token))
    | .error .other => .done (.error .other)

/-! The labels. -/

/-- `key in value`. -/
def contains (key : String) : Value → Option Bool
  | .dict entries => some (entries.any fun entry => entry.1 = key)
  | .list items => some ((Value.str key).isIn items)
  | .str text => some (key.toList <:+: text.toList)
  | _ => none

/-- Whether a manifest of an index is no attestation; it raises where an entry is no dictionary. -/
def isPlatform (manifest : Value) : Option Bool := do
  let entries ← manifest.asDict
  let platform := entries.getD "platform" .none
  let platform ← if platform.truthy then platform.asDict else some ∅
  return !(platform.getD "os" .none).eq (.str "unknown")

def keepPlatforms : List Value → Option (List Value)
  | [] => some []
  | manifest :: rest => do
    let kept ← isPlatform manifest
    let others ← keepPlatforms rest
    return if kept then manifest :: others else others

/-- The manifests of an index that are no attestations. -/
def platforms (manifest : Value) : Option (List Value) := do
  let manifests ← (← manifest.item "manifests").iterate
  keepPlatforms manifests

/-- The labels of a manifest's config. -/
def configLabels (host repo : List Char) (manifest : Value) (auth : Option Value) :
    Program Network (Except Raised Value) :=
  let configDigest := safeGet .none manifest ["config", "digest"]
  if configDigest.truthy = false then .done (.ok (.dict []))
  else
    andThen (registryBlob python host repo "blobs".toList configDigest auth) fun config =>
      let labels := safeGet .none config.1 ["config", "Labels"]
      .done (.ok (if labels.truthy then labels else .dict []))

/-- The `try` of `_registry_image_labels`. -/
def registryLabels (host repo : List Char) (digest : String) : Program Network (Except Raised Value) :=
  andThen (registryBlob python host repo "manifests".toList (.str digest) none) fun manifest =>
    match contains "manifests" manifest.1 with
    | none => .done (.error .other)
    | some false => configLabels python host repo manifest.1 manifest.2
    | some true =>
      match platforms manifest.1 with
      | none => .done (.error .other)
      | some [] => .done (.ok (.dict []))
      | some (child :: _) =>
        match child.item "digest" with
        | none => .done (.error .other)
        | some childDigest =>
          andThen (registryBlob python host repo "manifests".toList childDigest manifest.2) fun manifest =>
            configLabels python host repo manifest.1 manifest.2

/-- `_registry_image_labels`: every exception becomes the empty map. -/
def registryImageLabels (registryLabelLookup : Bool) (imageRef : List Char) : Program Network Value :=
  if registryLabelLookup = false then .done (.dict [])
  else
    match parseImageRef imageRef, imageDigest imageRef with
    | some (host, repo), some digest =>
      if digest = "" then .done (.dict [])
      else
        registryLabels python host repo digest >>= fun
          | .ok labels => .done labels
          | .error _ => .done (.dict [])
    | _, _ => .done (.dict [])

end

/-! The token. -/

attribute [local irreducible] registryGet registryToken registryBlob configLabels registryLabels
  registryImageLabels

section Token
variable {python : Python} {host : List Char}

/-- A token goes to the host, over https. -/
def TokenTo (python : Python) (host : List Char) (fetch : Fetch) : Prop :=
  fetch.token ≠ none → requestTarget python.unquote fetch.url = some ("https".toList, host)

/-- A host that `urllib` reads as it is written. -/
structure Plain (python : Python) (host : List Char) : Prop where
  whole : ∀ c ∈ host, endsNetloc c = false
  visible : ∀ c ∈ host, PyText.isSpace c = false
  unquoted : python.unquote host = host

/-- A URL of the host. -/
def AtHost (host url : List Char) : Prop :=
  ∃ rest, (∀ c ∈ rest.head?, endsNetloc c = true) ∧ url = "https".toList ++ ':' :: '/' :: '/' :: (host ++ rest)

theorem AtHost.target {url : List Char} (at' : AtHost host url) (plain : Plain python host) (some' : host ≠ []) :
    requestTarget python.unquote url = some ("https".toList, host) := by
  obtain ⟨rest, begins, rfl⟩ := at'
  have visible : ∀ c ∈ host.getLast?, PyText.isSpace c = false :=
    fun c last => plain.visible c (List.mem_of_getLast? last)
  rw [requestTarget_host python.unquote some' plain.whole visible begins, plain.unquoted]

theorem urlsplit_https {netloc rest : List Char} (whole : ∀ c ∈ netloc, endsNetloc c = false)
    (safe : ∀ c ∈ netloc, isUnsafe c = false) (begins : ∀ c ∈ rest.head?, endsNetloc c = true) {parts : SplitResult}
    (split : urlsplit python.nfkc ("https".toList ++ ':' :: '/' :: '/' :: (netloc ++ rest)) = some parts) :
    parts.netloc = netloc := by
  rw [urlsplit_named python.nfkc (by decide) (by decide) whole begins, clean_eq_self.mpr safe] at split
  split at split
  · obtain rfl := Option.some.inj split
    rfl
  · exact absurd split (by simp)

theorem Plain.safe (plain : Plain python host) : ∀ c ∈ host, isUnsafe c = false := by
  intro c inside
  by_contra removed
  simp only [isUnsafe, Bool.or_eq_false_iff, beq_eq_false_iff_ne, ne_eq, not_and_or, not_not] at removed
  rcases removed with (rfl | rfl) | rfl <;> exact absurd (plain.visible _ inside) (by decide)

/-- A token that the redirects so far kept is at the host still, or will not be sent. -/
def Kept (python : Python) (host url : List Char) (token : Option Value) : Prop :=
  token ≠ none → AtHost host url ∨ ∀ parts, urlsplit python.nfkc url = some parts → parts.scheme ≠ "https".toList

theorem redirect_atHost {url location target : List Char} {parts there : SplitResult} (plain : Plain python host)
    (some' : host ≠ []) (at' : AtHost host url) (split : urlsplit python.nfkc url = some parts)
    (https : parts.scheme = "https".toList) (referred : location ≠ [])
    (joined : urljoin python.nfkc url location = some target) (split' : urlsplit python.nfkc target = some there)
    (same : there.netloc = parts.netloc) : AtHost host target ∨ there.scheme ≠ "https".toList := by
  have here : parts.netloc = host := by
    obtain ⟨rest, begins, rfl⟩ := at'
    exact urlsplit_https plain.whole plain.safe begins split
  have based : url ≠ [] := by
    obtain ⟨rest, _, rfl⟩ := at'
    simp
  rcases urljoin_host based split https (here ▸ some') referred joined with
    ⟨other, split'', foreign⟩ | ⟨netloc, rest, _, whole, begins, rfl⟩
  · rw [split'] at split''
    obtain rfl := Option.some.inj split''
    exact Or.inr foreign
  · have named : there.netloc = netloc :=
      urlsplit_https (fun c inside => (whole c inside).1) (fun c inside => (whole c inside).2) begins split'
    exact Or.inl ⟨rest, begins, by rw [← named, same, here]⟩

/-- A redirect takes a token along to the host only, if it is followed at all. -/
theorem redirected_kept {url location target : List Char} {parts : SplitResult} {token token' : Option Value}
    (plain : Plain python host) (some' : host ≠ []) (at' : token ≠ none → AtHost host url)
    (split : urlsplit python.nfkc url = some parts) (https : parts.scheme = "https".toList) (referred : location ≠ [])
    (led : redirected python url parts.netloc location token = some (target, token')) :
    Kept python host target token' := by
  intro shown
  obtain ⟨joined, urljoined, rest⟩ := Option.bind_eq_some_iff.mp led
  obtain ⟨there, split', made⟩ := Option.bind_eq_some_iff.mp rest
  simp only [Option.pure_def, Option.some.injEq, Prod.mk.injEq] at made
  obtain ⟨rfl, goes⟩ := made
  split at goes
  · rename_i same
    rw [← goes] at shown
    rcases redirect_atHost plain some' (at' shown) split https referred urljoined split' same with here | other
    · exact Or.inl here
    · refine Or.inr fun parts' split'' => ?_
      rw [split'] at split''
      obtain rfl := Option.some.inj split''
      exact other
  · exact absurd goes.symm shown

theorem registryRound_tokenTo {follow : Option (List Char → Option Value → Program Network (Except Raised Bytes))}
    {url : List Char} {accept : Option String} {token : Option Value} (plain : Plain python host) (some' : host ≠ [])
    (follows : ∀ next ∈ follow, ∀ target token, Kept python host target token →
      (next target token).Uses (TokenTo python host)) (kept : Kept python host url token) :
    (registryRound python follow url accept token).Uses (TokenTo python host) := by
  unfold registryRound
  cases split : urlsplit python.nfkc url with
  | none => trivial
  | some parts =>
    simp only
    split
    · trivial
    · rename_i opened
      rw [not_or, not_not] at opened
      have there : token ≠ none → AtHost host url := by
        intro shown
        rcases kept shown with at' | never
        · exact at'
        · exact absurd opened.1 (never parts split)
      refine ⟨fun shown => (there shown).target plain some', fun response => ?_⟩
      cases response with
      | failure => trivial
      | body bytes => trivial
      | httpError code location challenge =>
        simp only
        split
        · rename_i next location
          split
          · rename_i redirect
            cases led : redirected python url parts.netloc location token with
            | none => trivial
            | some step =>
              obtain ⟨target, token'⟩ := step
              exact follows next rfl _ _ (redirected_kept plain some' there split opened.1 redirect.2 led)
          · trivial
        · trivial

/-- A fetch shows its token to the host only. -/
theorem registryGet_tokenTo {url : List Char} {token : Option Value} (plain : Plain python host) (some' : host ≠ [])
    (left : Nat) (accept : Option String) (kept : Kept python host url token) :
    (registryGet python left url accept token).Uses (TokenTo python host) := by
  induction left generalizing url token with
  | zero =>
    rw [registryGet]
    exact registryRound_tokenTo plain some' (by simp) kept
  | succ left ih =>
    rw [registryGet]
    apply registryRound_tokenTo plain some' _ kept
    intro next mem target token kept'
    obtain rfl := Option.some.inj mem
    exact ih kept'

theorem uses_andThen {α β : Type} {allowed : Fetch → Prop} {first : Program Network (Except Raised α)}
    {rest : α → Program Network (Except Raised β)} (uses : first.Uses allowed) (later : ∀ value, (rest value).Uses allowed) :
    (andThen first rest).Uses allowed := by
  apply uses.bind
  rintro (raised | value)
  · trivial
  · exact later value

theorem registryToken_tokenTo (plain : Plain python host) (some' : host ≠ []) (challenge repo : List Char) :
    (registryToken python challenge repo).Uses (TokenTo python host) := by
  unfold registryToken
  split
  · trivial
  · simp only
    split
    · trivial
    · apply uses_andThen
      · exact registryGet_tokenTo plain some' 3 none fun shown => absurd rfl shown
      · intro body
        cases (python.loads body).bind Value.asDict with
        | none => trivial
        | some data => trivial

theorem registryBlob_tokenTo (plain : Plain python host) (some' : host ≠ []) (repo kind : List Char) (digest : Value)
    (auth : Option Value) : (registryBlob python host repo kind digest auth).Uses (TokenTo python host) := by
  have fetched (token : Option Value) (accept : Option String) : (registryGet python 3 ("https://".toList ++ host ++
      "/v2/".toList ++ repo ++ '/' :: kind ++ '/' :: formatted python digest) accept token).Uses (TokenTo python host) := by
    refine registryGet_tokenTo plain some' 3 accept fun _ => Or.inl ?_
    exact ⟨"/v2/".toList ++ repo ++ '/' :: kind ++ '/' :: formatted python digest, by simp [endsNetloc], by simp⟩
  unfold registryBlob
  apply (fetched auth _).bind
  intro first
  rcases first with (⟨code, challenge⟩ | _) | body
  · simp only
    split
    · trivial
    · apply uses_andThen (registryToken_tokenTo plain some' _ repo)
      intro token
      split
      · trivial
      · exact uses_andThen (fetched (some token) _) fun body => trivial
  · trivial
  · trivial

theorem configLabels_tokenTo (plain : Plain python host) (some' : host ≠ []) (repo : List Char) (manifest : Value)
    (auth : Option Value) : (configLabels python host repo manifest auth).Uses (TokenTo python host) := by
  unfold configLabels
  simp only
  split
  · trivial
  · exact uses_andThen (registryBlob_tokenTo plain some' repo _ _ auth) fun config => trivial

theorem registryLabels_tokenTo (plain : Plain python host) (some' : host ≠ []) (repo : List Char) (digest : String) :
    (registryLabels python host repo digest).Uses (TokenTo python host) := by
  unfold registryLabels
  apply uses_andThen (registryBlob_tokenTo plain some' repo _ _ none)
  intro manifest
  split
  · trivial
  · exact configLabels_tokenTo plain some' repo _ _
  · split
    · trivial
    · trivial
    · split
      · trivial
      · exact uses_andThen (registryBlob_tokenTo plain some' repo _ _ _) fun child =>
          configLabels_tokenTo plain some' repo _ _

theorem hosted_host (name : List Char) : (hosted name).1 ≠ [] := by
  unfold hosted
  simp only
  split
  · rename_i named
    rcases named.2 with dot | colon | same
    · exact List.ne_nil_of_mem dot
    · exact List.ne_nil_of_mem colon
    · simp [same]
  · simp

/-- A host that an image reference names is not empty. -/
theorem parseImageRef_host {ref repo : List Char} (parsed : parseImageRef ref = some (host, repo)) : host ≠ [] := by
  unfold parseImageRef at parsed
  simp only at parsed
  split at parsed
  · exact absurd parsed (by simp)
  · split at parsed
    · rw [← (Prod.mk.inj (Option.some.inj parsed)).1]
      simp
    · rw [← (Prod.mk.inj (Option.some.inj parsed)).1]
      exact hosted_host _

/-- The token of an image goes to the host of its reference. -/
theorem registryImageLabels_tokenTo {ref repo : List Char} (parsed : parseImageRef ref = some (host, repo))
    (plain : Plain python host) (enabled : Bool) :
    (registryImageLabels python enabled ref).Uses (TokenTo python host) := by
  unfold registryImageLabels
  rw [parsed]
  split
  · trivial
  · split
    · rename_i same _
      obtain ⟨rfl, rfl⟩ := Prod.mk.inj (Option.some.inj same)
      split
      · trivial
      · apply (registryLabels_tokenTo plain (parseImageRef_host parsed) _ _).bind
        rintro (raised | labels) <;> trivial
    · trivial

end Token

/-! The redirects. -/

section Redirects
variable {python : Python}

theorem registryRound_atMost {follow : Option (List Char → Option Value → Program Network (Except Raised Bytes))}
    {rounds : Nat} (follows : ∀ next ∈ follow, ∀ target token, (next target token).AtMost rounds) (url : List Char)
    (accept : Option String) (token : Option Value) :
    (registryRound python follow url accept token).AtMost (rounds + 1) := by
  unfold registryRound
  cases urlsplit python.nfkc url with
  | none => simp
  | some parts =>
    simp only
    split
    · simp
    · intro response
      cases response with
      | failure => simp
      | body bytes => simp
      | httpError code location challenge =>
        simp only
        split
        · split
          · split
            · simp
            · exact follows _ rfl _ _
          · simp
        · simp

/-- A fetch sends one request and one for each redirect that it follows. -/
theorem registryGet_atMost (left : Nat) (url : List Char) (accept : Option String) (token : Option Value) :
    (registryGet python left url accept token).AtMost (left + 1) := by
  induction left generalizing url token with
  | zero =>
    rw [registryGet]
    exact registryRound_atMost (by simp) url accept token
  | succ left ih =>
    rw [registryGet]
    apply registryRound_atMost _ url accept token
    intro next mem target token
    obtain rfl := Option.some.inj mem
    exact ih target token

end Redirects

/-! The labels. -/

section Labels
variable (python : Python)

/-- A content with a digest. -/
def Holds (digest content : Value) : Prop := ∃ body, digestOf body = digest ∧ python.loads body = some content

/-- An index names a digest among its manifests. -/
def Names (index digest : Value) : Prop :=
  ∃ manifests children child, index.item "manifests" = some manifests ∧ manifests.iterate = some children ∧
    child ∈ children ∧ child.item "digest" = some digest

/-- The manifest with the pinned digest, or one that this one names. -/
def ManifestOf (pinned manifest : Value) : Prop :=
  Holds python pinned manifest ∨
    ∃ index digest, Holds python pinned index ∧ Names index digest ∧ Holds python digest manifest

/-- The labels of a config that such a manifest names. -/
def LabelsOf (pinned labels : Value) : Prop :=
  ∃ manifest config, ManifestOf python pinned manifest ∧ Holds python (safeGet .none manifest ["config", "digest"]) config ∧
    labels = safeGet .none config ["config", "Labels"]

variable {python}

theorem returns_andThen {α β : Type} {first : Program Network (Except Raised α)}
    {rest : α → Program Network (Except Raised β)} {result : β} (returns : (andThen first rest).Returns (.ok result)) :
    ∃ value, first.Returns (.ok value) ∧ (rest value).Returns (.ok result) := by
  obtain ⟨raised | value, first', later⟩ := Program.returns_bind.mp returns
  · exact absurd later (by simp [Program.Returns])
  · exact ⟨value, first', later⟩

theorem checked_holds {digest content : Value} {body : Bytes} (checks : checked python digest body = .ok content) :
    Holds python digest content := by
  unfold checked at checks
  split at checks
  · rename_i same
    cases loaded : python.loads body with
    | none => simp [loaded] at checks
    | some value =>
      simp only [loaded, Except.ok.injEq] at checks
      exact ⟨body, same, checks ▸ loaded⟩
  · exact absurd checks (by simp)

theorem map_checked {digest content : Value} {auth auth' : Option Value} {body : Bytes}
    (made : (checked python digest body).map (·, auth) = .ok (content, auth')) : Holds python digest content := by
  cases checks : checked python digest body with
  | error raised => simp [checks, Except.map] at made
  | ok value =>
    simp only [checks, Except.map, Except.ok.injEq, Prod.mk.injEq] at made
    exact made.1 ▸ checked_holds checks

/-- A blob is one that its digest names. -/
theorem registryBlob_holds {host repo kind : List Char} {digest content : Value} {auth auth' : Option Value}
    (returns : (registryBlob python host repo kind digest auth).Returns (.ok (content, auth'))) :
    Holds python digest content := by
  unfold registryBlob at returns
  obtain ⟨first, _, later⟩ := Program.returns_bind.mp returns
  match first with
  | .ok body => exact map_checked later
  | .error .other => exact absurd later (by simp [Program.Returns])
  | .error (.httpError code challenge) =>
    simp only at later
    split at later
    · exact absurd later (by simp [Program.Returns])
    · obtain ⟨token, _, last⟩ := returns_andThen later
      split at last
      · exact absurd last (by simp [Program.Returns])
      · obtain ⟨body, _, made⟩ := returns_andThen last
        exact map_checked made

/-- The labels are none or those of the config that the manifest names. -/
theorem configLabels_holds {host repo : List Char} {manifest labels : Value} {auth : Option Value}
    (returns : (configLabels python host repo manifest auth).Returns (.ok labels)) :
    labels = .dict [] ∨ ∃ config, Holds python (safeGet .none manifest ["config", "digest"]) config ∧
      labels = safeGet .none config ["config", "Labels"] := by
  unfold configLabels at returns
  simp only at returns
  split at returns
  · simp only [Program.Returns, Except.ok.injEq] at returns
    exact Or.inl returns.symm
  · obtain ⟨config, read, made⟩ := returns_andThen returns
    simp only [Program.Returns, Except.ok.injEq] at made
    split at made
    · exact Or.inr ⟨config.1, registryBlob_holds read, made.symm⟩
    · exact Or.inl made.symm

theorem mem_of_keepPlatforms {manifests kept : List Value} (listed : keepPlatforms manifests = some kept) :
    ∀ manifest ∈ kept, manifest ∈ manifests := by
  induction manifests generalizing kept with
  | nil =>
    obtain rfl := Option.some.inj listed
    simp
  | cons first rest ih =>
    obtain ⟨keeps, _, later⟩ := Option.bind_eq_some_iff.mp listed
    obtain ⟨others, listed', made⟩ := Option.bind_eq_some_iff.mp later
    simp only [Option.pure_def, Option.some.injEq] at made
    intro manifest mem
    rw [← made] at mem
    split at mem
    · rcases List.mem_cons.mp mem with rfl | mem
      · exact List.mem_cons_self
      · exact List.mem_cons_of_mem _ (ih listed' manifest mem)
    · exact List.mem_cons_of_mem _ (ih listed' manifest mem)

theorem names_of_platforms {index child digest : Value} {rest : List Value} (listed : platforms index = some (child :: rest))
    (named : child.item "digest" = some digest) : Names index digest := by
  obtain ⟨manifests, found, iterated⟩ := Option.bind_eq_some_iff.mp listed
  obtain ⟨children, iterates, kept⟩ := Option.bind_eq_some_iff.mp iterated
  exact ⟨manifests, children, child, found, iterates, mem_of_keepPlatforms kept child List.mem_cons_self, named⟩

theorem registryLabels_of {host repo : List Char} {digest : String} {labels : Value}
    (returns : (registryLabels python host repo digest).Returns (.ok labels)) :
    labels = .dict [] ∨ LabelsOf python (.str digest) labels := by
  unfold registryLabels at returns
  obtain ⟨manifest, read, later⟩ := returns_andThen returns
  have root := registryBlob_holds read
  split at later
  · exact absurd later (by simp [Program.Returns])
  · rcases configLabels_holds later with none' | ⟨config, named, rfl⟩
    · exact Or.inl none'
    · exact Or.inr ⟨manifest.1, config, .inl root, named, rfl⟩
  · split at later
    · exact absurd later (by simp [Program.Returns])
    · simp only [Program.Returns, Except.ok.injEq] at later
      exact Or.inl later.symm
    · rename_i child rest listed
      split at later
      · exact absurd later (by simp [Program.Returns])
      · rename_i childDigest named
        obtain ⟨child', read', last⟩ := returns_andThen later
        have names := names_of_platforms listed named
        rcases configLabels_holds last with none' | ⟨config, named', rfl⟩
        · exact Or.inl none'
        · have manifest' : ManifestOf python (.str digest) child'.1 :=
            Or.inr ⟨manifest.1, childDigest, root, names, registryBlob_holds read'⟩
          exact Or.inr ⟨child'.1, config, manifest', named', rfl⟩

theorem registryImageLabels_of {ref : List Char} {enabled : Bool} {labels : Value}
    (returns : (registryImageLabels python enabled ref).Returns labels) :
    labels = .dict [] ∨ ∃ digest, imageDigest ref = some digest ∧ LabelsOf python (.str digest) labels := by
  unfold registryImageLabels at returns
  split at returns
  · exact Or.inl returns.symm
  · split at returns
    · rename_i host repo digest parsed pinned
      split at returns
      · exact Or.inl returns.symm
      · obtain ⟨result, read, last⟩ := Program.returns_bind.mp returns
        cases result with
        | error raised => exact Or.inl last.symm
        | ok found =>
          have same : found = labels := last
          rcases registryLabels_of (same ▸ read) with none' | named
          · exact Or.inl none'
          · exact Or.inr ⟨digest, pinned, named⟩
    · exact Or.inl returns.symm

end Labels

/-- Whatever the registry answers: a token is sent over https to the host of the reference, if this is read as it is
written; a fetch follows three redirects at most; and the labels are none or those of a config that the pinned
manifest, or one that it names, names. -/
theorem registry_lookup (python : Python) (enabled : Bool) (ref : List Char) :
    (∀ host repo, parseImageRef ref = some (host, repo) → Plain python host →
      (registryImageLabels python enabled ref).Uses (TokenTo python host)) ∧
    (∀ url accept token, (registryGet python 3 url accept token).AtMost 4) ∧
    ∀ labels, (registryImageLabels python enabled ref).Returns labels →
      labels = .dict [] ∨ ∃ digest, imageDigest ref = some digest ∧ LabelsOf python (.str digest) labels :=
  ⟨fun _ _ parsed plain => registryImageLabels_tokenTo parsed plain enabled,
    registryGet_atMost 3, fun _ => registryImageLabels_of⟩

/-! A registry that asks for a token. -/

/-- `{"token":"t"}` for every body. -/
def examplePython : Python where
  nfkc := id
  unquote := id
  loads := fun _ => some (.dict [("token", .str "t")])
  str := fun _ => []

/-- A challenge, then the token, then nothing more. -/
def answer (answers : List Answer) (_ : Fetch) : Answer × List Answer := (answers.headD .failure, answers.tail)

def challenged : List Answer :=
  [.httpError 401 none (some "Bearer realm=\"https://auth.example/token\"".toList), .body []]

def tokensSent (ref : List Char) : List (List Char) :=
  ((registryImageLabels examplePython true ref).served answer challenged).filterMap fun entry =>
    let fetch : Fetch := entry.request
    if fetch.token.isSome then some fetch.url else none

theorem tokensSent_target {ref host : List Char}
    (uses : (registryImageLabels examplePython true ref).Uses (TokenTo examplePython host)) :
    ∀ url ∈ tokensSent ref, requestTarget id url = some ("https".toList, host) := by
  intro url sent
  obtain ⟨entry, mem, made⟩ := List.mem_filterMap.mp sent
  have towards : TokenTo examplePython host entry.request := Program.Uses.served answer uses challenged entry mem
  simp only [Option.ite_none_right_eq_some] at made
  rw [← Option.some.inj made.2]
  exact towards (Option.isSome_iff_ne_none.mp made.1)

theorem registry_lookup_quay :
    (registryImageLabels examplePython true "quay.io/org/train@sha256:ab".toList).Uses
      (TokenTo examplePython "quay.io".toList) :=
  (registry_lookup examplePython true "quay.io/org/train@sha256:ab".toList).1 _ "org/train".toList (by decide +kernel)
    ⟨List.all_iff_forall_prop.mp (by decide), List.all_iff_forall_prop.mp (by decide), rfl⟩

/-- A reference whose host has a number sign. -/
def evilReference : List Char := "evil.example#.io/org/train@sha256:ab".toList

theorem sent_elsewhere : parseImageRef evilReference = some ("evil.example#.io".toList, "org/train".toList) ∧
    "https://evil.example#.io/v2/org/train/manifests/sha256:ab".toList ∈ tokensSent evilReference ∧
    requestTarget id "https://evil.example#.io/v2/org/train/manifests/sha256:ab".toList ≠
      some ("https".toList, "evil.example#.io".toList) :=
  ⟨by decide, by with_unfolding_all decide, by decide⟩

/-- The token goes to what is in front of the number sign. -/
theorem token_to_another_host : ¬∀ (python : Python) (enabled : Bool) (ref host repo : List Char),
    parseImageRef ref = some (host, repo) → (registryImageLabels python enabled ref).Uses (TokenTo python host) := by
  intro always
  obtain ⟨parsed, shown, other⟩ := sent_elsewhere
  exact other (tokensSent_target (always examplePython true evilReference _ _ parsed) _ shown)

end AibomWebhook.RegistryLookup
