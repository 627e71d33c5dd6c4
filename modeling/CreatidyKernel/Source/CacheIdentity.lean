import CreatidyKernel.Intake.Discovery

set_option relaxedAutoImplicit false
set_option autoImplicit false

/-!
# The identity of a cached source

A repository URL is reduced to a canonical one: the lower-cased HTTPS origin without its default
port, and the path of the repository without the suffix `.git`. The lock file, the location of the
cache and the record of its ownership are computed from the canonical URL, and the callers reduce
an URL once or twice.

## Main definitions

* `Source.readAuthority` — the host and the port of an authority.
* `Source.httpsOrigin`, `Source.repositoryPath`, `Source.canonicalRepository` — the reduction.
* `Source.sourceCacheKey`, `Source.lockName`, `Source.ownership` — the identities.
-/

namespace CreatidyKernel

namespace Source

open Checked Intake

/-- `SourceAcquisitionError` of a URL. -/
def mismatch : Failure :=
  ⟨.valueError, "source refused: remote_mismatch; preserve data and inspect controller placement"⟩

/-! ## Authorities -/

/-- `str.lower` of a character: of the others beyond ASCII, none is lowered to an ASCII text. -/
def lowerChar (c : Char) : Char := if c = '\u212a' then 'k' else c.toLower

/-- The match of `[A-Za-z0-9.:-]`. -/
def hostChar (c : Char) : Bool := c.isAlpha || c.isDigit || c == '.' || c == ':' || c == '-'

/-- The host and the port in an authority without user information. -/
def hostinfo (netloc : List Char) : List Char × List Char :=
  if '[' ∈ netloc then
    let (host, rest) := divide ']' (divide '[' netloc).2
    (host, (divide ':' rest).2)
  else divide ':' netloc

/-- A group of an IPv6 address in lower case. -/
def isHextet (cs : List Char) : Bool :=
  !cs.isEmpty && decide (cs.length ≤ 4) && cs.all fun c => c.isDigit || ('a' ≤ c && c ≤ 'f')

/-- A part of an IPv4 address. -/
def isOctet (cs : List Char) : Bool :=
  !cs.isEmpty && decide (cs.length ≤ 3) && cs.all Char.isDigit &&
    (cs == ['0'] || cs.head? != some '0') && decide (Nat.ofDigitChars 10 cs 0 ≤ 255)

/-- An IPv4 address. -/
def isIPv4 (cs : List Char) : Bool :=
  let parts := cs.splitOn '.'
  decide (parts.length = 4) && parts.all isOctet

/-- The groups on one side of an abbreviation, which may be none. -/
def isSide (side : List (List Char)) : Bool := side == [[]] || side.all isHextet

/-- How many groups one side of an abbreviation has. -/
def sideLength (side : List (List Char)) : ℕ := if side = [[]] then 0 else side.length

/-- The groups of an IPv6 address, of which one inside may be empty for an abbreviation. -/
def isGroups (parts : List (List Char)) : Bool :=
  let inner := parts.tail.dropLast
  if [] ∈ inner then
    let i := inner.idxOf [] + 1
    let left := parts.take i
    let right := parts.drop (i + 1)
    isSide left && isSide right && decide (sideLength left + sideLength right ≤ 7)
  else decide (parts.length = 8) && parts.all isHextet

/-- An IPv6 address in lower case; an address with a zone is no host. -/
def isIPv6 (cs : List Char) : Bool :=
  let parts := cs.splitOn ':'
  decide (3 ≤ parts.length) && decide (parts.length ≤ 9) &&
    match parts.getLast? with
    | some suffix =>
      if '.' ∈ suffix then isIPv4 suffix && isGroups (parts.dropLast ++ [['0'], ['0']])
      else isGroups parts
    | none => false

/-- The match of `[a-fA-F0-9]+\..+`, in lower case. -/
def isFuture (cs : List Char) : Bool :=
  let digit (c : Char) : Bool := c.isDigit || ('a' ≤ c && c ≤ 'f')
  !(cs.takeWhile digit).isEmpty && (cs.dropWhile digit).head? == some '.' &&
    decide (2 ≤ (cs.dropWhile digit).length)

/-- A host in brackets: an address of a future version, or of version 6. -/
def bracketedHost (host : List Char) : Bool :=
  (host.head? == some 'v' && isFuture (host.map lowerChar).tail) || isIPv6 (host.map lowerChar)

/-- The authorities `urlsplit` takes: brackets stand around a whole host. -/
def acceptsNetloc (netloc : List Char) : Bool :=
  if '[' ∈ netloc then
    let (host, rest) := divide ']' netloc.tail
    netloc.head? == some '[' && decide (']' ∈ netloc) && (rest.isEmpty || rest.head? == some ':') &&
      bracketedHost host
  else decide (']' ∉ netloc)

/-- The property `port`. -/
def readPort (cs : List Char) : Except Failure (Option ℕ) :=
  if cs = [] then .ok none
  else do
    check (cs.all Char.isDigit = true) mismatch
    check (Nat.ofDigitChars 10 cs 0 ≤ 65535) mismatch
    return some (Nat.ofDigitChars 10 cs 0)

/-- The host and the port of an authority. -/
def readAuthority (netloc : List Char) : Except Failure (List Char × Option ℕ) := do
  check (acceptsNetloc netloc = true) mismatch
  let (host, port) := hostinfo netloc
  let port ← readPort port
  return (host.map lowerChar, port)

/-! ## The reduction -/

/-- The authority of an origin. -/
def authorityText (host : List Char) (port : Option ℕ) : List Char :=
  let host := if ':' ∈ host then '[' :: host ++ [']'] else host
  match port with
  | none => host
  | some n => if n = 443 then host else host ++ ':' :: (toString n).toList

/-- `https_origin`. -/
def httpsOrigin (url : String) : Except Failure (List Char) := do
  let parsed := urlsplit url
  let (host, port) ← readAuthority parsed.netloc
  check (parsed.scheme = "https".toList ∧ host ≠ [] ∧ '@' ∉ parsed.netloc ∧ parsed.query = [] ∧
    parsed.fragment = [] ∧ host.all hostChar = true) mismatch
  check (port ≠ some 0) mismatch
  return "https://".toList ++ authorityText host port

/-- The match of `[A-Za-z0-9._~-]`. -/
def pathChar (c : Char) : Bool :=
  c.isAlpha || c.isDigit || c == '.' || c == '_' || c == '~' || c == '-'

/-- A part of the path of a repository. -/
def ValidPart (part : List Char) : Prop :=
  part.length ≤ 128 ∧ part ∉ [[], ['.'], ['.', '.']] ∧ ¬['.', '.'] <:+: part ∧
    part.all pathChar = true

instance (part : List Char) : Decidable (ValidPart part) :=
  inferInstanceAs (Decidable (_ ∧ _ ∧ _ ∧ _))

/-- The path of a repository: an owner and a name. -/
def ValidPath (path : List Char) : Prop :=
  path.length ≤ 255 ∧ (path.splitOn '/').length = 2 ∧ ∀ part ∈ path.splitOn '/', ValidPart part

instance (path : List Char) : Decidable (ValidPath path) :=
  inferInstanceAs (Decidable (_ ∧ _ ∧ _))

/-- `repository_path`. -/
def repositoryPath (path : List Char) : Except Failure (List Char) := do
  check (ValidPath path) mismatch
  return path

/-- `path.removesuffix(".git")`. -/
def removeGit (path : List Char) : List Char :=
  if ".git".toList <:+ path then path.take (path.length - 4) else path

/-- `canonical_repository`. -/
def canonicalRepository (url : String) : Except Failure String := do
  check (∀ c ∈ url.toList, 33 ≤ c.toNat ∧ c.toNat ≠ 127) mismatch
  check ((urlsplit url).netloc.getLast? ≠ some ':') mismatch
  let origin ← httpsOrigin url
  let path := (urlsplit url).path
  check (path.head? = some '/' ∧ path.getLast? ≠ some '/') mismatch
  let path ← repositoryPath (removeGit path.tail)
  return String.ofList (origin ++ '/' :: path)

/-! ## Identities -/

section

variable [Sha256]

/-- `source_cache_key`: the parts of the location under the root of the cache. -/
def sourceCacheKey (url : String) : Except Failure (List String) := do
  let canonical ← canonicalRepository url
  let origin ← httpsOrigin canonical
  return ["v2", (Sha256.hexdigest (String.ofList origin)).val] ++
    ((urlsplit canonical).path.tail.splitOn '/').map String.ofList

/-- The name of the lock file. -/
def lockName (url : String) : Except Failure String := do
  let canonical ← canonicalRepository url
  return (Sha256.hexdigest canonical).val

/-- The record of ownership, by the inodes of the root and of the locks. -/
def ownership (root : Json) (inode : String → Json) (url : String) : Except Failure Json := do
  let canonical ← canonicalRepository url
  let key ← sourceCacheKey url
  let lock ← lockName url
  return .obj [("location", .arr (key.map .str)), ("lock", inode lock),
    ("repository", .str canonical), ("root", root), ("schema", .int 2)]

end

end Source

end CreatidyKernel
