import DocStore.Http.Host

/-!
# Request targets

`target?` is the path of a request to an address, with its query, if the address is that of a web
server. Blanks around the address and line breaks in it are dropped, both slashes separate segments,
`.` and `..` segments are resolved, and characters that a path or a query cannot hold are
percent-encoded. Credentials and a fragment are no part of a target. `isHeaderValue` says which
texts can be sent in a header.
-/

namespace DocStore.Http

/-! ## Segments -/

/-- Either slash separates the parts of a web address. -/
def isSlash (c : Char) : Bool := c == '/' || c == '\\'

/-- A dot, which may be written by its number. -/
def dropDot? : List Char → Option (List Char)
  | '.' :: rest => some rest
  | '%' :: '2' :: 'e' :: rest => some rest
  | '%' :: '2' :: 'E' :: rest => some rest
  | _ => none

def isSingleDot (segment : List Char) : Bool := dropDot? segment == some []

def isDoubleDot (segment : List Char) : Bool := (dropDot? segment).bind dropDot? == some []

/-- Resolves the segments of a path. `above` holds the segments so far, the last first; a dot
segment at the end leaves an empty one, so that the path still ends with a slash. -/
def resolveDots (above : List (List Char)) : List (List Char) → List (List Char)
  | [] => above.reverse
  | segment :: rest =>
    if isDoubleDot segment then
      resolveDots (if rest.isEmpty then [] :: above.drop 1 else above.drop 1) rest
    else if isSingleDot segment then resolveDots (if rest.isEmpty then [] :: above else above) rest
    else resolveDots (segment :: above) rest

/-! ## Percent encoding -/

/-- The characters that neither a path nor a query can hold as they are. -/
def needsPercent (c : Char) : Bool :=
  c.toNat ≤ 0x20 || 0x7F ≤ c.toNat || c == '"' || c == '#' || c == '<' || c == '>'

def pathNeedsPercent (c : Char) : Bool :=
  needsPercent c || c == '?' || c == '^' || c == '`' || c == '\x7b' || c == '\x7d'

def queryNeedsPercent (c : Char) : Bool := needsPercent c || c == '\''

/-- A character as it is sent: its bytes by number where it cannot be held. -/
def encodeChar (needs : Char → Bool) (c : Char) : List Char :=
  if needs c then (String.utf8EncodeChar c).flatMap Text.percentTriple else [c]

def pathOf (segments : List (List Char)) : List Char :=
  segments.flatMap fun s => '/' :: s.flatMap (encodeChar pathNeedsPercent)

/-! ## Addresses -/

/-- The address without blanks and controls at its ends and without tabs and line breaks. -/
def cleaned (url : List Char) : List Char :=
  let outer (c : Char) : Bool := c.toNat ≤ 0x20
  let trimmed := ((url.dropWhile outer).reverse.dropWhile outer).reverse
  trimmed.filter fun c => c != '\t' && c != '\n' && c != '\r'

/-- What follows the scheme of a web address, which may be written in either case, and its
slashes. -/
def afterScheme? (url : List Char) : Option (List Char) :=
  let scheme := (url.takeWhile (· != ':')).map Char.toLower
  if scheme == "http".toList || scheme == "https".toList then
    match url.dropWhile (· != ':') with
    | ':' :: rest => some (rest.dropWhile isSlash)
    | _ => none
  else none

def endsAuthority (c : Char) : Bool := isSlash c || c == '?' || c == '#'

/-- The name of the server and the port, which stand after the credentials, if there are any. -/
def withoutCredentials (authority : List Char) : List Char :=
  (authority.reverse.takeWhile (· != '@')).reverse

/-- The name of the server and what follows it. A name in brackets may hold colons. -/
def splitHost : List Char → List Char × List Char
  | '[' :: rest =>
    (('[' :: rest.takeWhile (· != ']')) ++ (rest.dropWhile (· != ']')).take 1,
      (rest.dropWhile (· != ']')).drop 1)
  | s => (s.takeWhile (· != ':'), s.dropWhile (· != ':'))

/-- What may follow the name of a server: nothing, or a colon and a port of 16 bits, which may be
left out. -/
def isPort : List Char → Bool
  | [] => true
  | ':' :: digits => digits.all Char.isDigit && Decimal.ofDigitChars 0 digits < 0x10000
  | _ => false

def target? (url : String) : Option String := do
  let rest ← afterScheme? (cleaned url.toList)
  let (host, port) := splitHost (withoutCredentials (rest.takeWhile (!endsAuthority ·)))
  if isHost host && isPort port then
    let tail := (rest.dropWhile (!endsAuthority ·)).takeWhile (· != '#')
    let path := tail.takeWhile (· != '?')
    let query := tail.dropWhile (· != '?')
    let segments := resolveDots [] (splitBy isSlash (path.drop 1))
    some (String.ofList (pathOf segments ++ query.flatMap (encodeChar queryNeedsPercent)))
  else none

/-! ## Headers -/

def isHeaderValue (s : String) : Bool :=
  s.toList.all fun c => c == '\t' || (0x20 ≤ c.toNat && c.toNat != 0x7F)

end DocStore.Http
