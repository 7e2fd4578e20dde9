import FusionAtlas.Url.Host

/-!
Urls, read and written in normal form: scheme and domain in lower case, dot segments resolved,
characters that may not stand for themselves percent-coded, a service number left out that the
scheme implies.
-/

set_option autoImplicit false
set_option relaxedAutoImplicit false

namespace FusionAtlas

/-- The part behind `//`: who asks, where, for which service. -/
structure Url.Authority where
  /-- User name and password as written, with the closing `@`. -/
  userInfo : List Char
  /-- None if the host is empty. -/
  host : Option Url.Host
  /-- Number of the service at the host, unless the scheme implies it. -/
  service : Option Nat
  deriving DecidableEq, Repr

/-- The path of a url. -/
inductive Url.Path where
  /-- Not divided into segments. -/
  | opaqueText (text : List Char)
  /-- Each segment stands behind a slash. -/
  | segments (segments : List (List Char))
  deriving DecidableEq, Repr

/-- A url by its parts. -/
structure Url where
  scheme : List Char
  authority : Option Url.Authority
  path : Url.Path
  query : Option (List Char)
  fragment : Option (List Char)
  deriving DecidableEq, Repr

namespace Url

/-- How a scheme is treated. -/
inductive SchemeClass where
  | file | wellKnown | other
  deriving DecidableEq, Repr

/-- The number of the service that a scheme implies. -/
def impliedService? (scheme : List Char) : Option Nat :=
  if scheme = "http".toList ∨ scheme = "ws".toList then some 80
  else if scheme = "https".toList ∨ scheme = "wss".toList then some 443
  else if scheme = "ftp".toList then some 21
  else none

def schemeClass (scheme : List Char) : SchemeClass :=
  if scheme = "file".toList then .file
  else if (impliedService? scheme).isSome then .wellKnown
  else .other

def escapedInFragment (c : Char) : Bool := isControl c || " \"<>`".toList.contains c

def escapedInPath (c : Char) : Bool := escapedInFragment c || "#?\x7b\x7d".toList.contains c

/-- Escaped in a path segment that is given by its bytes. -/
def escapedInSegment (c : Char) : Bool := escapedInPath c || "/%\\".toList.contains c

def escapedInUserInfo (c : Char) : Bool := escapedInPath c || "/:;=@[\\]^|".toList.contains c

/-- Escaped in a query. -/
def escapedInQuery (cls : SchemeClass) (c : Char) : Bool :=
  isControl c || " \"#<>".toList.contains c || (cls != .other && c == '\'')

/-- Ends an authority; a backslash counts as a slash where the scheme is known. -/
def endsAuthority (cls : SchemeClass) (c : Char) : Bool :=
  c == '/' || c == '?' || c == '#' || (cls != .other && c == '\\')

def isSlash (cls : SchemeClass) (c : Char) : Bool := c == '/' || (cls != .other && c == '\\')

/-- Tabs and line ends, which do not count wherever they stand. -/
def isIgnored (c : Char) : Bool := c == '\t' || c == '\n' || c == '\r'

/-- A text without what does not count. -/
def withoutIgnored (text : List Char) : List Char := text.filter fun c => !isIgnored c

/-- A letter followed by a colon or a bar names a drive. -/
def isDrive : List Char → Bool
  | [letter, mark] => letter.isAlpha && (mark == ':' || mark == '|')
  | _ => false

/-- A drive that a tab or line end parts from what follows it in its segment, and what follows. -/
def partedDrive? (segment : List Char) : Option (List Char × List Char) :=
  match segment.dropWhile isIgnored with
  | letter :: more =>
    match more.dropWhile isIgnored with
    | ':' :: rest =>
      let behind := withoutIgnored rest
      if letter.isAlpha && rest.head?.any isIgnored && !behind.isEmpty then
        some ([letter, ':'], behind)
      else none
    | _ => none
  | [] => none

/-- A dot as itself or percent-coded, in a segment of the given count of dots. -/
def isDots : Nat → List Char → Bool
  | 0, [] => true
  | n + 1, '.' :: rest => isDots n rest
  | n + 1, '%' :: '2' :: 'e' :: rest | n + 1, '%' :: '2' :: 'E' :: rest => isDots n rest
  | _, _ => false

/-- The segments of a path that have been passed. -/
structure Passed where
  /-- The segments, last first. -/
  above : List (List Char)
  /-- The first of them is a drive. -/
  onDrive : Bool
  deriving DecidableEq, Repr

namespace Passed

def nothing : Passed := ⟨[], false⟩

def push (passed : Passed) (segment : List Char) : Passed :=
  { passed with above := segment :: passed.above }

/-- Take the last segment away, unless it is a drive. -/
def stepUp (passed : Passed) : Passed :=
  match passed.above with
  | [] => passed
  | top :: above => if isDrive top then passed else { passed with above }

/-- Pass a written segment: dot segments are resolved, and one at the end leaves an empty segment
behind. At the start of the path of a `file` url a drive is written with a colon; if it is parted
from what follows it, that is a segment of its own, which is neither a drive nor resolved. -/
def enter (cls : SchemeClass) (passed : Passed) (segment : List Char) (atEnd : Bool) : Passed :=
  let escaped (text : List Char) := Text.Percent.encode escapedInPath text
  let text := escaped (withoutIgnored segment)
  let atStart := cls == .file && passed.above.isEmpty
  match if atStart then partedDrive? segment else none with
  | some (drive, behind) => (passed.push drive).push (escaped behind)
  | none =>
    if isDots 2 text then if atEnd then passed.stepUp.push [] else passed.stepUp
    else if isDots 1 text then if atEnd then passed.push [] else passed
    else if atStart && isDrive text then ⟨[text.take 1 ++ [':']], true⟩
    else passed.push text

end Passed

/-- Pass the written segments of a path. -/
def resolve (cls : SchemeClass) (passed : Passed) : List (List Char) → Passed
  | [] => passed
  | segment :: rest => resolve cls (passed.enter cls segment rest.isEmpty) rest

def segmentsOf (cls : SchemeClass) (path : List Char) : List (List Char) :=
  (resolve cls .nothing (path.splitOnP (isSlash cls))).above.reverse

/-- Drop empty segments at the start, except the last one of all. -/
def dropEmptyStart : List (List Char) → List (List Char)
  | [] :: segment :: rest => dropEmptyStart (segment :: rest)
  | segments => segments

/-- The part of a text before its query and fragment, the query, and the fragment. -/
def splitTail (cls : SchemeClass) (text : List Char) :
    List Char × Option (List Char) × Option (List Char) :=
  let path := text.takeWhile fun c => c != '?' && c != '#'
  let query (q : List Char) := Text.Percent.encode (escapedInQuery cls) (withoutIgnored q)
  let fragment (f : List Char) := Text.Percent.encode escapedInFragment (withoutIgnored f)
  match text.drop path.length with
  | '?' :: more =>
    let q := more.takeWhile (· != '#')
    match more.drop q.length with
    | _ :: f => (path, some (query q), some (fragment f))
    | [] => (path, some (query q), none)
  | _ :: f => (path, none, some (fragment f))
  | [] => (path, none, none)

/-- Split at the last occurrence of a mark. -/
def splitLast? (mark : Char) (text : List Char) : Option (List Char × List Char) :=
  let behind := Text.afterLast mark text
  if behind.length = text.length then none
  else some (text.take (text.length - behind.length - 1), behind)

/-- User name and password in normal form, with the closing `@` if there are any. -/
def userInfoText (text : List Char) : List Char :=
  let name := text.takeWhile (· != ':')
  let password := (text.drop name.length).drop 1
  let escaped (t : List Char) := Text.Percent.encode escapedInUserInfo t
  if name.isEmpty && password.isEmpty then []
  else if password.isEmpty then escaped name ++ ['@']
  else escaped name ++ ':' :: escaped password ++ ['@']

/-- Where the host of an authority ends: at a colon outside brackets. -/
def hostLength (bracketed : Bool) : List Char → Nat
  | [] => 0
  | c :: rest =>
    if c = ':' ∧ ¬ bracketed then 0
    else hostLength (if c = '[' then true else if c = ']' then false else bracketed) rest + 1

/-- Read a service number behind its colon; the implied one is left out. A backslash ends it, even
where it is no slash. -/
def service? (scheme text : List Char) : Option (Option Nat × List Char) :=
  let digits := text.takeWhile Char.isDigit
  let behind := text.drop digits.length
  if !(behind.isEmpty || behind.head? == some '\\') then none
  else if digits.isEmpty then some (none, behind)
  else
    (number? 10 digits).bind fun n =>
      if n > 65535 then none
      else some (if impliedService? scheme = some n then none else some n, behind)

/-- Host and service number, and what is behind a backslash that ended the number. -/
structure Server where
  host : Option Host
  service : Option Nat
  behind : List Char

/-- Read host and service number of a scheme other than `file`. A service needs a host. -/
def server? (scheme : List Char) (cls : SchemeClass) (text : List Char) : Option Server := do
  let n := hostLength false text
  let host ← if cls = .wellKnown then domainHost? (text.take n) else opaqueHost? (text.take n)
  if host = .domain [] then
    if (text.drop n).isEmpty then some ⟨none, none, []⟩ else none
  else
    let (service, behind) ← service? scheme ((text.drop n).drop 1)
    some ⟨some host, service, behind⟩

/-- Read the authority of a scheme other than `file`, and what is behind a backslash that ended it.
A user needs a host, and so does the mark of an empty user that is followed by a path, query or
fragment. -/
def authority? (scheme : List Char) (cls : SchemeClass) (text : List Char) (atEnd : Bool) :
    Option (Authority × List Char) :=
  match splitLast? '@' text with
  | none =>
    (server? scheme cls text).map fun server => (⟨[], server.host, server.service⟩, server.behind)
  | some (user, behind) =>
    if user.isEmpty && behind.isEmpty && !atEnd then none
    else
      (server? scheme cls behind).bind fun server =>
        let userInfo := userInfoText user
        if server.host.isNone && !userInfo.isEmpty then none
        else some (⟨userInfo, server.host, server.service⟩, server.behind)

/-- What is behind a slash at the start. -/
def behindSlash? (cls : SchemeClass) (text : List Char) : Option (List Char) :=
  match text.dropWhile isIgnored with
  | c :: rest => if isSlash cls c then some rest else none
  | [] => none

def dropSlash (cls : SchemeClass) (text : List Char) : List Char :=
  (behindSlash? cls text).getD text

/-- Read a url behind the scheme when it is not `file`. -/
def other? (scheme : List Char) (cls : SchemeClass) (text : List Char) : Option Url :=
  let rest? : Option (List Char) :=
    if cls = .wellKnown then some (text.dropWhile (isSlash cls))
    else Text.afterOpening? "//".toList text
  match rest? with
  | some rest => do
    let authorityText := rest.takeWhile fun c => !endsAuthority cls c
    let behind := rest.drop authorityText.length
    let (authority, more) ← authority? scheme cls authorityText behind.isEmpty
    let (path, query, fragment) := splitTail cls (more ++ behind)
    let segments :=
      if cls = .other ∧ path = [] then [] else segmentsOf cls (dropSlash cls path)
    some ⟨scheme, some authority, .segments segments, query, fragment⟩
  | none =>
    let (path, query, fragment) := splitTail cls text
    match path with
    | '/' :: more =>
      some ⟨scheme, none, .segments (segmentsOf cls more), query, fragment⟩
    | _ => some ⟨scheme, none, .opaqueText (Text.Percent.encode isControl path), query, fragment⟩

/-- A `file` url with the given host, from its path, query and fragment. A path that starts with a
drive has no host. -/
def fileAt (host : Option Host) (text : List Char) : Url :=
  let (path, query, fragment) := splitTail .file text
  let passed := resolve .file .nothing (path.splitOnP (isSlash .file))
  let segments := dropEmptyStart passed.above.reverse
  ⟨"file".toList, some ⟨[], if passed.onDrive then none else host, none⟩, .segments segments,
    query, fragment⟩

/-- Read a `file` url behind its two slashes. `localhost` counts as no host, and a drive is never
one. -/
def fileBehindSlashes? (text : List Char) : Option Url :=
  let written := text.takeWhile fun c => !endsAuthority .file c
  let behind := text.drop written.length
  let hostText := withoutIgnored written
  if isDrive hostText then some (fileAt none text)
  else if hostText.isEmpty then some (fileAt none behind)
  else
    (domainHost? hostText).map fun host =>
      if host = .domain "localhost".toList then fileAt none behind
      else fileAt (some host) (dropSlash .file behind)

/-- Read a `file` url behind the scheme. Tabs and line ends still stand in it, since one that parts
a drive from what follows it makes a difference. -/
def file? (text : List Char) : Option Url :=
  match behindSlash? .file text with
  | none => some (fileAt none text)
  | some behind =>
    match behindSlash? .file behind with
    | none => some (fileAt none behind)
    | some behind => fileBehindSlashes? behind

/-- The scheme in front of the first colon, in lower case, and the rest. -/
def scheme? (text : List Char) : Option (List Char × List Char) :=
  let written := text.takeWhile (· != ':')
  let scheme := withoutIgnored written
  let valid := scheme.all fun c => Text.isAsciiAlphanumeric c || c == '+' || c == '-' || c == '.'
  match scheme, text.drop written.length with
  | c :: _, _ :: rest =>
    if Text.isAsciiLetter c && valid then some (scheme.map Char.toLower, rest) else none
  | _, _ => none

/-- A text without control characters and spaces around it. -/
def trimmed (text : List Char) : List Char :=
  let outer (c : Char) := c.toNat ≤ 0x20
  Text.dropEndWhile outer (text.dropWhile outer)

def parse? (text : List Char) : Option Url :=
  match scheme? (trimmed text) with
  | none => none
  | some (scheme, rest) =>
    match schemeClass scheme with
    | .file => file? rest
    | cls => other? scheme cls (withoutIgnored rest)

def segmentsText (segments : List (List Char)) : List Char :=
  segments.flatMap fun segment => '/' :: segment

namespace Authority

/-- How an authority is written, its slashes included. -/
def text (a : Authority) : List Char :=
  "//".toList ++ a.userInfo ++ (a.host.map Host.text).getD [] ++
    (a.service.map fun n => ':' :: Nat.toDigits 10 n).getD []

end Authority

/-- How a path is written. Without an authority a path may not seem to have one. -/
def pathText (authority : Option Authority) : Path → List Char
  | .opaqueText text => text
  | .segments segments =>
    match authority, segments with
    | none, [] :: _ :: _ => "/.".toList ++ segmentsText segments
    | _, _ => segmentsText segments

def text (url : Url) : List Char :=
  url.scheme ++ ':' :: (url.authority.map Authority.text).getD [] ++
    pathText url.authority url.path ++
    (url.query.map ('?' :: ·)).getD [] ++ (url.fragment.map ('#' :: ·)).getD []

/-- The host, if the url names one. -/
def host? (url : Url) : Option Host := url.authority.bind (·.host)

/-- The segments of the path, if it is divided and not empty. -/
def segments? (url : Url) : Option (List (List Char)) :=
  match url.path with
  | .segments [] | .opaqueText _ => none
  | .segments segments => some segments

end Url

end FusionAtlas
