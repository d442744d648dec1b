import FleetControl.Yaml.Scalar

/-!
The tokens of a text. A mapping key on one line is recognised by the colon after it; its token is put
before it then. A block collection begins where a column is further right than those before it and
ends where one is further left.
-/
namespace FleetControl.Yaml

/-- A place at which a key may have begun: in front of which token, and where in the text. At a
required key the colon may not be missing. -/
structure PendingKey where
  token : Nat
  position : Position
  required : Bool
deriving DecidableEq, Repr

/-- `indents` are the columns of the block collections around, innermost first. `keys` are the
pending keys of the flow collections around, innermost first, after them that of the block. -/
structure Lexer where
  rest : List Char
  position : Position
  indents : List Nat
  keyAllowed : Bool
  keys : List (Option PendingKey)
  tokens : List Token

namespace Lexer

def start (cs : List Char) : Lexer := ⟨cs, ⟨0, 0⟩, [], true, [none], []⟩

def inFlow (x : Lexer) : Bool := 1 < x.keys.length

def take (x : Lexer) (n : Nat) : Lexer :=
  { x with rest := x.rest.drop n, position := x.position.right n }

def emit (x : Lexer) (t : Token) : Lexer := { x with tokens := x.tokens ++ [t] }

def resume (x : Lexer) (s : Scan) : Lexer :=
  { x with rest := s.rest, position := s.position, keyAllowed := x.keyAllowed || s.broken }

def isRequired : Option PendingKey → Bool
  | some k => k.required
  | none => false

def dropKey? (x : Lexer) : Option Lexer :=
  match x.keys with
  | k :: rest => if isRequired k then none else some { x with keys := none :: rest }
  | [] => some x

def saveKey? (x : Lexer) : Option Lexer :=
  if x.keyAllowed then do
    let x ← x.dropKey?
    let required := !x.inFlow && x.indents.head? == some x.position.column
    some { x with keys := some ⟨x.tokens.length, x.position, required⟩ :: x.keys.drop 1 }
  else some x

def isStale (p : Position) (k : PendingKey) : Bool :=
  k.position.line < p.line || k.position.column + 1024 < p.column

def expireKeys? (x : Lexer) : Option Lexer :=
  let stale (k : Option PendingKey) : Bool := (k.map (isStale x.position)).getD false
  if x.keys.any fun k => stale k && isRequired k then none
  else some { x with keys := x.keys.map fun k => if stale k then none else k }

def openBlock (x : Lexer) (column token : Nat) (t : Token) : Lexer :=
  let isFurther := ((x.indents.head?).map fun i => decide (i < column)).getD true
  if isFurther ∧ !x.inFlow then
    { x with indents := column :: x.indents, tokens := x.tokens.insertIdx token t }
  else x

def closeBlocks (x : Lexer) (keep : Nat → Bool) : Lexer :=
  if x.inFlow then x
  else
    let closed := x.indents.takeWhile fun i => !keep i
    { x with
      indents := x.indents.drop closed.length
      tokens := x.tokens ++ closed.map fun _ => Token.blockEnd }

def closeAll (x : Lexer) : Lexer := x.closeBlocks fun _ => false

def skipBlanks (flow comment keyAllowed : Bool) (p : Position) : List Char → Bool × Position × List Char
  | [] => (keyAllowed, p, [])
  | c :: rest =>
    if isBreak c then skipBlanks flow false (keyAllowed || !flow) p.nextLine rest
    else if comment ∨ c = '#' then skipBlanks flow true keyAllowed (p.right 1) rest
    else if c = ' ' ∨ (c = '\t' ∧ (flow || !keyAllowed)) ∨ (c = '\ufeff' ∧ p.column = 0) then
      skipBlanks flow false keyAllowed (p.right 1) rest
    else (keyAllowed, p, c :: rest)

def toNextToken (x : Lexer) : Lexer :=
  let (keyAllowed, position, rest) := skipBlanks x.inFlow false x.keyAllowed x.position x.rest
  { x with keyAllowed, position, rest }

def endsLine (cs : List Char) : Bool :=
  match cs.dropWhile isBlank with
  | [] => true
  | c :: _ => c == '#' || isBreak c

def number? (cs : List Char) : Option (Nat × List Char) :=
  let ds := cs.takeWhile Char.isDigit
  if ds.isEmpty ∨ 9 < ds.length then none
  else some (ds.foldl (fun n c => n * 10 + (c.toNat - 0x30)) 0, cs.drop ds.length)

def version? (cs : List Char) : Option (Token × List Char) := do
  let (major, rest) ← number? (cs.dropWhile isBlank)
  match rest with
  | '.' :: rest =>
    let (minor, rest) ← number? rest
    some (.version major minor, rest)
  | _ => none

def handle? : List Char → Option (List Char × List Char)
  | '!' :: rest =>
    let word := rest.takeWhile isWord
    match rest.drop word.length with
    | '!' :: rest => some ('!' :: word ++ ['!'], rest)
    | rest => some ('!' :: word, rest)
  | _ => none

def isUri (verbatim : Bool) (c : Char) : Bool :=
  isWord c || ";/?:@&=+$.!~*'()%".toList.contains c || (verbatim && (c == ',' || c == '[' || c == ']'))

def wellEscaped : List Char → Bool
  | '%' :: a :: b :: rest =>
    (Url.Percent.hexValue? a).isSome && (Url.Percent.hexValue? b).isSome && wellEscaped rest
  | '%' :: _ => false
  | _ :: rest => wellEscaped rest
  | [] => true

def uri? (verbatim : Bool) (cs : List Char) : Option (String × List Char) :=
  let text := cs.takeWhile (isUri verbatim)
  if wellEscaped text then
    (String.fromUTF8? ⟨(Url.Percent.decode text).toArray⟩).map fun s => (s, cs.drop text.length)
  else none

def handleDirective? (cs : List Char) : Option (Token × List Char) := do
  let (handle, rest) ← handle? (cs.dropWhile isBlank)
  if handle.getLast? ≠ some '!' ∨ !((rest.head?).map isBlank).getD false then none
  else
    let (expansion, rest) ← uri? true (rest.dropWhile isBlank)
    if expansion.isEmpty ∨ !endsWord rest then none
    else some (.handle (String.ofList handle) expansion, rest)

def directive? (cs : List Char) : Option (Token × List Char) := do
  let name := cs.takeWhile isWord
  let rest := cs.drop name.length
  if name.isEmpty ∨ !endsWord rest then none
  else
    let (t, rest) ← if name = "YAML".toList then version? rest
      else if name = "TAG".toList then handleDirective? rest
      else none
    if endsLine rest then some (t, rest.dropWhile fun c => !isBreak c) else none

/-- A tag as its handle and the rest. Without a handle of its own it has the handle `!`, and the lone
exclamation mark has none. -/
def tag? (cs : List Char) : Option (Token × List Char) :=
  match cs with
  | '!' :: '<' :: rest => do
    let (suffix, rest) ← uri? true rest
    match rest with
    | '>' :: rest => if suffix.isEmpty then none else some (.tag "" suffix, rest)
    | _ => none
  | cs => do
    let (handle, rest) ← handle? cs
    let (suffix, rest) ← uri? false rest
    if 1 < handle.length ∧ handle.getLast? = some '!' then
      if suffix.isEmpty then none else some (.tag (String.ofList handle) suffix, rest)
    else
      let suffix := String.ofList (handle.drop 1) ++ suffix
      some (if suffix.isEmpty then .tag "" "!" else .tag "!" suffix, rest)

def endsName (cs : List Char) : Bool :=
  ((cs.head?).map fun c => isSpace c || "?:,]\x7d%@`".toList.contains c).getD true

def name? (cs : List Char) : Option (String × List Char) :=
  let name := cs.takeWhile isWord
  let rest := cs.drop name.length
  if name.isEmpty ∨ !endsName rest then none else some (String.ofList name, rest)

def goOn (x : Lexer) (rest : List Char) : Lexer := x.take (x.rest.length - rest.length)

def documentToken? (x : Lexer) (width : Nat) (t : Token) : Option Lexer := do
  let x ← x.closeAll.dropKey?
  some (({ x with keyAllowed := false }.take width).emit t)

def directiveToken? (x : Lexer) : Option Lexer := do
  let x ← x.closeAll.dropKey?
  let (t, rest) ← directive? (x.rest.drop 1)
  some (({ x with keyAllowed := false }.goOn rest).emit t)

def openFlow? (x : Lexer) (t : Token) : Option Lexer := do
  let x ← x.saveKey?
  some (({ x with keys := none :: x.keys, keyAllowed := true }.take 1).emit t)

def closeFlow? (x : Lexer) (t : Token) : Option Lexer := do
  let x ← x.dropKey?
  let keys := if x.inFlow then x.keys.drop 1 else x.keys
  some (({ x with keys, keyAllowed := false }.take 1).emit t)

def flowEntry? (x : Lexer) : Option Lexer := do
  let x ← x.dropKey?
  some (({ x with keyAllowed := true }.take 1).emit .flowEntry)

def blockEntry? (x : Lexer) : Option Lexer := do
  if !x.inFlow ∧ !x.keyAllowed then none
  else
    let x ← (x.openBlock x.position.column x.tokens.length .blockSequence).dropKey?
    some (({ x with keyAllowed := true }.take 1).emit .blockEntry)

def explicitKey? (x : Lexer) : Option Lexer := do
  if !x.inFlow ∧ !x.keyAllowed then none
  else
    let x ← (x.openBlock x.position.column x.tokens.length .blockMapping).dropKey?
    some (({ x with keyAllowed := !x.inFlow }.take 1).emit .key)

def value? (x : Lexer) : Option Lexer :=
  match x.keys with
  | some k :: keys =>
    let x := { x with keys := none :: keys, tokens := x.tokens.insertIdx k.token .key }
    let x := x.openBlock k.position.column k.token .blockMapping
    some (({ x with keyAllowed := false }.take 1).emit .value)
  | _ =>
    if !x.inFlow ∧ !x.keyAllowed then none
    else
      let x := x.openBlock x.position.column x.tokens.length .blockMapping
      some (({ x with keyAllowed := !x.inFlow }.take 1).emit .value)

def content? (x : Lexer) (read : Lexer → Option (Token × Lexer)) : Option Lexer := do
  let x ← x.saveKey?
  let (t, x) ← read { x with keyAllowed := false }
  some (x.emit t)

def nameToken? (make : String → Token) (x : Lexer) : Option (Token × Lexer) := do
  let (name, rest) ← name? (x.rest.drop 1)
  some (make name, x.goOn rest)

def tagToken? (x : Lexer) : Option (Token × Lexer) := do
  let (t, rest) ← tag? x.rest
  if endsWord rest ∨ (x.inFlow ∧ rest.head? = some ',') then some (t, x.goOn rest) else none

def scalarToken (style : Style) (s : Scan) : Token := .scalar style (String.ofList s.text)

def quotedToken? (single : Bool) (x : Lexer) : Option (Token × Lexer) := do
  let s ← scanQuoted single (x.position.right 1) [] .none (x.rest.drop 1)
  some (scalarToken .quoted s, x.resume s)

def plainToken? (x : Lexer) : Option (Token × Lexer) := do
  let indent := ((x.indents.head?).map (· + 1)).getD 0
  let s ← scanPlain x.inFlow indent x.position [] .none x.rest
  some (scalarToken .plain s, x.resume s)

def blockToken? (folded : Bool) (x : Lexer) : Option Lexer := do
  let x ← x.dropKey?
  let s ← scanBlock folded x.indents.head? x.position (x.rest.drop 1)
  some (({ x with keyAllowed := true }.resume s).emit (scalarToken .quoted s))

def isIndicator (c : Char) : Bool := "-?:,[]\x7b\x7d#&*!|>'\"%@`".toList.contains c

def startsPlain (flow : Bool) (c : Char) (rest : List Char) : Bool :=
  !isIndicator c && c != '\t' || (c == '-' && !((rest.head?).map isBlank).getD false) ||
    (!flow && (c == '?' || c == ':') && !endsWord rest)

def token? (x : Lexer) (c : Char) (rest : List Char) : Option Lexer :=
  if x.position.column = 0 ∧ c = '%' then x.directiveToken?
  else if isDocumentMark x.position (c :: rest) then
    x.documentToken? 3 (if c = '-' then .documentStart else .documentEnd)
  else match c with
    | '[' => x.openFlow? .flowSequence
    | '\x7b' => x.openFlow? .flowMapping
    | ']' => x.closeFlow? .flowSequenceEnd
    | '\x7d' => x.closeFlow? .flowMappingEnd
    | ',' => x.flowEntry?
    | '*' => x.content? (nameToken? .alias)
    | '&' => x.content? (nameToken? .anchor)
    | '!' => x.content? tagToken?
    | '\'' => x.content? (quotedToken? true)
    | '"' => x.content? (quotedToken? false)
    | c =>
      if c = '-' ∧ endsWord rest then x.blockEntry?
      else if c = '?' ∧ (x.inFlow || endsWord rest) then x.explicitKey?
      else if c = ':' ∧ (x.inFlow || endsWord rest) then x.value?
      else if c = '|' ∧ !x.inFlow then x.blockToken? false
      else if c = '>' ∧ !x.inFlow then x.blockToken? true
      else if startsPlain x.inFlow c rest then x.content? plainToken?
      else none

def run? : Nat → Lexer → Option (List Token)
  | 0, _ => none
  | fuel + 1, x => do
    let x ← x.toNextToken.expireKeys?
    let x := x.closeBlocks fun i => i ≤ x.position.column
    match x.rest with
    | [] =>
      let x ← x.closeAll.dropKey?
      some x.tokens
    | c :: rest => run? fuel (← x.token? c rest)

end Lexer

def Token.ofText? (text : String) : Option (List Token) := do
  let cs ← stream? text
  Lexer.run? (cs.length + 1) (Lexer.start cs)

end FleetControl.Yaml
