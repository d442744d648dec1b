import FleetControl.Url

/-!
Reading a URL, by itself or relative to another one. Segments of one dot are dropped and those of
two dots take the segment before them away, also where the dots are percent-encoded. In the schemes
of the web and of files a backslash counts as a slash.
-/
namespace FleetControl.Url

def isSlash (family : Family) (c : Char) : Bool := c == '/' || (c == '\\' && family != .other)

def isEitherSlash (c : Char) : Bool := c == '/' || c == '\\'

def clean (text : String) : List Char :=
  let outer (c : Char) : Bool := c.toNat ≤ 0x20
  let trimmed := ((text.toList.dropWhile outer).reverse.dropWhile outer).reverse
  trimmed.filter fun c => c != '\t' && c != '\n' && c != '\r'

def isSchemeCharacter (c : Char) : Bool := c.isAlphanum || c == '+' || c == '-' || c == '.'

def scheme? (cs : List Char) : Option (String × List Char) :=
  if ((cs.head?).map Char.isAlpha).getD false then
    match cs.dropWhile isSchemeCharacter with
    | ':' :: rest => some (String.ofList ((cs.takeWhile isSchemeCharacter).map Char.toLower), rest)
    | _ => none
  else none

def decodeDots : List Char → List Char
  | '%' :: '2' :: 'e' :: rest => '.' :: decodeDots rest
  | '%' :: '2' :: 'E' :: rest => '.' :: decodeDots rest
  | c :: rest => c :: decodeDots rest
  | [] => []

def isDrive : List Char → Bool
  | [a, b] => a.isAlpha && (b == ':' || b == '|')
  | _ => false

def isDriveName (s : String) : Bool := isDrive s.toList && s.toList.getLast? == some ':'

def parent (family : Family) (segments : List String) : List String :=
  match family, segments with
  | .file, [s] => if isDriveName s then [s] else []
  | _, segments => segments.dropLast

def segment (cs : List Char) : String := String.ofList (Percent.encodeChars Percent.inPath cs)

def driveSegments : List Char → List String
  | [a, b] => if isDrive [a, b] then [String.ofList [a, ':']] else [segment [a, b]]
  | a :: ':' :: rest =>
    if a.isAlpha then [String.ofList [a, ':'], segment rest] else [segment (a :: ':' :: rest)]
  | cs => [segment cs]

def descend (family : Family) (segments : List String) : List (List Char) → List String
  | [] => segments
  | piece :: rest =>
    let atEnd := if rest.isEmpty then [""] else []
    match decodeDots piece with
    | ['.', '.'] => descend family (parent family segments ++ atEnd) rest
    | ['.'] => descend family (segments ++ atEnd) rest
    | _ =>
      let added := if family = .file ∧ segments = [] then driveSegments piece else [segment piece]
      descend family (segments ++ added) rest

def settled (family : Family) (segments : List String) : List String :=
  match family with
  | .file =>
    let rest := segments.dropWhile (· == "")
    if rest.isEmpty then [""] else rest
  | _ => segments

def isPathEnd (c : Char) : Bool := c == '?' || c == '#'

def readPath (family : Family) (segments : List String) (cs : List Char) : List String :=
  settled family (descend family segments (pieces (isSlash family) cs))

def encodeQuery (family : Family) (cs : List Char) : String :=
  String.ofList (Percent.encodeChars (if family = .other then Percent.inQuery else Percent.inWebQuery) cs)

def encodeFragment (cs : List Char) : String := String.ofList (Percent.encodeChars Percent.inFragment cs)

def withEnd (u : Url) (cs : List Char) : Url :=
  match cs with
  | '?' :: rest =>
    let query := some (encodeQuery (family u.scheme) (rest.takeWhile (· != '#')))
    match rest.dropWhile (· != '#') with
    | _ :: fragment => { u with query, fragment := some (encodeFragment fragment) }
    | [] => { u with query, fragment := none }
  | '#' :: rest => { u with fragment := some (encodeFragment rest) }
  | _ => u

def withPath (u : Url) (segments : List String) (cs : List Char) : Url :=
  let path := readPath (family u.scheme) segments (cs.takeWhile fun c => !isPathEnd c)
  { u with path := .rooted path, query := none, fragment := none }.withEnd
    (cs.dropWhile fun c => !isPathEnd c)

def withRootedPath (u : Url) (cs : List Char) : Url :=
  match cs with
  | [] => if family u.scheme = .other then u else { u with path := .rooted [""] }
  | c :: rest =>
    if isSlash (family u.scheme) c then u.withPath [] rest
    else if isPathEnd c ∧ family u.scheme = .other then u.withEnd cs
    else u.withPath [] cs

def isAuthorityEnd (family : Family) (c : Char) : Bool := isPathEnd c || isSlash family c

def encodeUserInfo (cs : List Char) : String := String.ofList (Percent.encodeChars Percent.inUserInfo cs)

def userInfo (cs : List Char) : String × Option String :=
  let password := (cs.dropWhile (· != ':')).drop 1
  (encodeUserInfo (cs.takeWhile (· != ':')),
    if password.isEmpty then none else some (encodeUserInfo password))

def splitLast? (mark : Char) (cs : List Char) : Option (List Char × List Char) :=
  match cs.reverse.dropWhile (· != mark) with
  | [] => none
  | _ :: before => some (before.reverse, (cs.reverse.takeWhile (· != mark)).reverse)

def hostLength (inBrackets : Bool) : List Char → Nat
  | [] => 0
  | ':' :: rest => if inBrackets then 1 + hostLength inBrackets rest else 0
  | '[' :: rest => 1 + hostLength true rest
  | ']' :: rest => 1 + hostLength false rest
  | _ :: rest => 1 + hostLength inBrackets rest

def readHost (family : Family) (cs : List Char) : Except Fault (Option Host) :=
  match family, cs with
  | .other, [] => .ok none
  | .other, cs => (Host.verbatim cs).map some
  | _, [] => .error .emptyHost
  | _, cs => (Host.ofChars cs).map some

def readPort (scheme : String) (cs : List Char) : Except Fault (Option Nat) :=
  if cs.all Char.isDigit then
    let n := cs.foldl (fun n c => n * 10 + (c.toNat - 0x30)) 0
    if 65535 < n then .error .invalidPort
    else if cs.isEmpty ∨ usualPort scheme = some n then .ok none
    else .ok (some n)
  else .error .invalidPort

def readAuthority (scheme : String) (cs : List Char) : Except Fault Authority := do
  let (user, hostAndPort) := (splitLast? '@' cs).getD ([], cs)
  if (splitLast? '@' cs).isSome ∧ hostAndPort.isEmpty then throw .emptyHost
  let n := hostLength false hostAndPort
  let host ← readHost (family scheme) (hostAndPort.take n)
  let port := hostAndPort.drop n
  if host = none ∧ port ≠ [] then throw .emptyHost
  let port ← readPort scheme (port.drop 1)
  let (name, password) := userInfo user
  if host = none ∧ (name ≠ "" ∨ password ≠ none) then throw .emptyHost
  pure ⟨name, password, host, port⟩

def readAfterSlashes (scheme : String) (cs : List Char) : Except Fault Url := do
  let isEnd := isAuthorityEnd (family scheme)
  let authority ← readAuthority scheme (cs.takeWhile fun c => !isEnd c)
  let u : Url := ⟨scheme, some authority, .rooted [], none, none⟩
  pure (u.withRootedPath (cs.dropWhile fun c => !isEnd c))

def fileUrl (host : Option Host) : Url :=
  ⟨"file", some { Authority.empty with host }, .rooted [""], none, none⟩

def startsWithDrive : List Char → Bool
  | a :: b :: rest =>
    isDrive [a, b] && ((rest.head?).map fun c => isEitherSlash c || isPathEnd c).getD true
  | _ => false

def withoutDriveHost (u : Url) : Url :=
  match u.path with
  | .rooted (s :: _) => if isDriveName s then { u with authority := some Authority.empty } else u
  | _ => u

def readFileHost (cs : List Char) : Except Fault (Option Host) :=
  if cs.isEmpty then .ok none
  else (Host.ofChars cs).map fun h => if h = .domain "localhost" then none else some h

def readFileAfterSlashes (cs : List Char) : Except Fault Url := do
  let isEnd (c : Char) : Bool := isEitherSlash c || isPathEnd c
  let hostText := cs.takeWhile fun c => !isEnd c
  if isDrive hostText then pure ((fileUrl none).withPath [] cs)
  else
    let host ← readFileHost hostText
    pure ((fileUrl host).withRootedPath (cs.dropWhile fun c => !isEnd c)).withoutDriveHost

def readFile (base : Option Url) (cs : List Char) : Except Fault Url :=
  match cs, base with
  | a :: b :: rest, _ =>
    if isEitherSlash a ∧ isEitherSlash b then readFileAfterSlashes rest
    else if isEitherSlash a then .ok (belowRoot (b :: rest))
    else .ok (relative (a :: b :: rest))
  | [a], _ => .ok (if isEitherSlash a then belowRoot [] else relative [a])
  | [], some base => .ok { base with fragment := none }
  | [], none => .ok (fileUrl none)
where
  belowRoot (rest : List Char) : Url :=
    match base with
    | some base =>
      if startsWithDrive rest then (fileUrl none).withPath [] rest
      else
        let first := base.path.segments.head?
        if (first.map isDriveName).getD false then (fileUrl none).withPath first.toList rest
        else (fileUrl (base.authority.bind Authority.host)).withPath [] rest
    | none => (fileUrl none).withPath [] rest
  relative (cs : List Char) : Url :=
    match base, cs.head? with
    | some base, some '?' => { base with query := none, fragment := none }.withEnd cs
    | some base, some '#' => base.withEnd cs
    | some base, _ =>
      if startsWithDrive cs then (fileUrl none).withPath [] cs
      else base.withPath (parent .file base.path.segments) cs
    | none, _ => (fileUrl none).withPath [] cs

def readRelative (base : Url) (cs : List Char) : Except Fault Url :=
  match cs with
  | [] => .ok { base with fragment := none }
  | '?' :: _ => .ok ({ base with query := none, fragment := none }.withEnd cs)
  | '#' :: _ => .ok (base.withEnd cs)
  | a :: rest =>
    if isEitherSlash a then
      match a, rest with
      | '/', '/' :: rest => readAfterSlashes base.scheme rest
      | _, b :: _ =>
        if isEitherSlash b then readAfterSlashes base.scheme (rest.dropWhile isEitherSlash)
        else .ok (base.withPath [] rest)
      | _, [] => .ok (base.withPath [] rest)
    else .ok (base.withPath base.path.segments.dropLast cs)

def readOther (scheme : String) (cs : List Char) : Except Fault Url :=
  let u : Url := ⟨scheme, none, .rooted [], none, none⟩
  match cs with
  | '/' :: '/' :: rest => readAfterSlashes scheme rest
  | '/' :: rest => .ok (u.withPath [] rest)
  | cs =>
    let text := String.ofList (Percent.encodeChars Percent.visible (cs.takeWhile fun c => !isPathEnd c))
    .ok ({ u with path := .rootless text }.withEnd (cs.dropWhile fun c => !isPathEnd c))

def readAfterScheme (base : Option Url) (scheme : String) (cs : List Char) : Except Fault Url :=
  match family scheme with
  | .file => readFile (base.filter fun b => b.scheme == "file") cs
  | .other => readOther scheme cs
  | .web =>
    let slashes := (cs.takeWhile isEitherSlash).length
    match base.filter fun b => b.scheme == scheme && slashes < 2 with
    | some base => readRelative base cs
    | none => readAfterSlashes scheme (cs.dropWhile isEitherSlash)

def isRootless : Path → Bool
  | .rooted _ => false
  | .rootless _ => true

def read (base : Option Url) (text : String) : Except Fault Url :=
  let cs := clean text
  match scheme? cs, base with
  | some (scheme, rest), base => readAfterScheme base scheme rest
  | none, none => .error .noBase
  | none, some base =>
    match cs with
    | '#' :: _ => .ok (base.withEnd cs)
    | cs =>
      if isRootless base.path then .error .rootlessBase
      else if family base.scheme = .file then readFile (some base) cs
      else readRelative base cs

def parse (text : String) : Except Fault Url := read none text

def join (base : Url) (text : String) : Except Fault Url := read (some base) text

end FleetControl.Url
