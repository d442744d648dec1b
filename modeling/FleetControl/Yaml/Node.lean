import FleetControl.Yaml.Lexer

/-!
YAML documents as trees. An alias is replaced by the node that its anchor is on; within that node
itself it stands for an empty sequence.
-/
namespace FleetControl.Yaml

inductive Node
  | scalar (style : Style) (tag : Option String) (text : String)
  | sequence (items : List Node)
  | mapping (entries : List (Node × Node))

namespace Node

structure Reader where
  tokens : List Token
  anchors : List (String × Node)

abbrev Reading := StateT Reader Option

def empty (tag : Option String) : Node := .scalar .plain tag ""

def peek : Reading (Option Token) := do pure (← get).tokens.head?

def advance : Reading Unit := modify fun r => { r with tokens := r.tokens.drop 1 }

def fail {α : Type} : Reading α := fun _ => none

def properties : Reading (Option String × Option (String × String)) := do
  match (← get).tokens with
  | .anchor a :: .tag h s :: _ => advance; advance; pure (some a, some (h, s))
  | .tag h s :: .anchor a :: _ => advance; advance; pure (some a, some (h, s))
  | .anchor a :: _ => advance; pure (some a, none)
  | .tag h s :: _ => advance; pure (none, some (h, s))
  | _ => pure (none, none)

def usualHandles : List (String × String) := [("!", "!"), ("!!", "tag:yaml.org,2002:")]

def expand (handles : List (String × String)) : Option (String × String) → Reading (Option String)
  | none => pure none
  | some ("", suffix) => pure (some suffix)
  | some (handle, suffix) =>
    match handles.find? fun h => h.1 == handle with
    | some (_, expansion) => pure (some (expansion ++ suffix))
    | none => fail

def keep (anchor : Option String) (n : Node) : Reading Node := do
  match anchor with
  | some a => modify fun r => { r with anchors := (a, n) :: r.anchors }
  | none => pure ()
  pure n

def isAbsent (closing : List Token) : Option Token → Bool
  | none => true
  | some t => t ∈ closing

def absent (anchor tag : Option String) : Reading Node :=
  if anchor.isSome ∨ tag.isSome then keep anchor (empty tag) else fail

def separator (first : Bool) : Reading Unit := do
  if !first then
    if (← peek) = some .flowEntry then advance else fail

mutual
/-- A node. Block collections are accepted in block context only, and there after a key also a
sequence that is not indented. -/
def node (handles : List (String × String)) : Nat → (block indentless : Bool) → Reading Node
  | 0, _, _ => fail
  | fuel + 1, block, indentless => do
    match ← peek with
    | some (.alias name) =>
      advance
      match (← get).anchors.find? fun a => a.1 == name with
      | some (_, n) => pure n
      | none => fail
    | _ =>
      let (anchor, tag) ← properties
      let tag ← expand handles tag
      let collection (read : Reading Node) : Reading Node := do
        let _ ← keep anchor (.sequence [])
        advance
        keep anchor (← read)
      match ← peek with
      | some (.scalar style text) => advance; keep anchor (.scalar style tag text)
      | some .flowSequence => collection (flowItems handles fuel true [])
      | some .flowMapping => collection (flowPairs handles fuel true [])
      | some .blockEntry =>
        if indentless then
          let _ ← keep anchor (.sequence [])
          keep anchor (← looseItems handles fuel [])
        else absent anchor tag
      | some .blockSequence =>
        if block then collection (blockItems handles fuel []) else absent anchor tag
      | some .blockMapping =>
        if block then collection (blockPairs handles fuel []) else absent anchor tag
      | _ => absent anchor tag

def optional (handles : List (String × String)) :
    Nat → (closing : List Token) → (block indentless : Bool) → Reading Node
  | 0, _, _, _ => fail
  | fuel + 1, closing, block, indentless => do
    if isAbsent closing (← peek) then pure (empty none) else node handles fuel block indentless

def blockItems (handles : List (String × String)) : Nat → List Node → Reading Node
  | 0, _ => fail
  | fuel + 1, done => do
    match ← peek with
    | some .blockEntry =>
      advance
      let n ← optional handles fuel [.blockEntry, .blockEnd] true false
      blockItems handles fuel (done ++ [n])
    | some .blockEnd => advance; pure (.sequence done)
    | _ => fail

def looseItems (handles : List (String × String)) : Nat → List Node → Reading Node
  | 0, _ => fail
  | fuel + 1, done => do
    match ← peek with
    | some .blockEntry =>
      advance
      let n ← optional handles fuel [.blockEntry, .key, .value, .blockEnd] true false
      looseItems handles fuel (done ++ [n])
    | _ => pure (.sequence done)

def blockPairs (handles : List (String × String)) : Nat → List (Node × Node) → Reading Node
  | 0, _ => fail
  | fuel + 1, done => do
    match ← peek with
    | some .key =>
      advance
      let k ← optional handles fuel [.key, .value, .blockEnd] true true
      let v ← blockValue handles fuel
      blockPairs handles fuel (done ++ [(k, v)])
    | some .blockEnd => advance; pure (.mapping done)
    | _ => fail

def blockValue (handles : List (String × String)) : Nat → Reading Node
  | 0 => fail
  | fuel + 1 => do
    match ← peek with
    | some .value => advance; optional handles fuel [.key, .value, .blockEnd] true true
    | _ => pure (empty none)

def flowValue (handles : List (String × String)) : Nat → (closing : Token) → Reading Node
  | 0, _ => fail
  | fuel + 1, closing => do
    match ← peek with
    | some .value => advance; optional handles fuel [.flowEntry, closing] false false
    | _ => pure (empty none)

def flowItems (handles : List (String × String)) : Nat → (first : Bool) → List Node → Reading Node
  | 0, _, _ => fail
  | fuel + 1, first, done => do
    if (← peek) = some .flowSequenceEnd then advance; pure (.sequence done)
    else
      separator first
      match ← peek with
      | some .flowSequenceEnd => advance; pure (.sequence done)
      | some .key =>
        advance
        let k ← node handles fuel false false
        let v ← flowValue handles fuel .flowSequenceEnd
        flowItems handles fuel false (done ++ [.mapping [(k, v)]])
      | _ =>
        let n ← node handles fuel false false
        flowItems handles fuel false (done ++ [n])

def flowPairs (handles : List (String × String)) :
    Nat → (first : Bool) → List (Node × Node) → Reading Node
  | 0, _, _ => fail
  | fuel + 1, first, done => do
    if (← peek) = some .flowMappingEnd then advance; pure (.mapping done)
    else
      separator first
      match ← peek with
      | some .flowMappingEnd => advance; pure (.mapping done)
      | some .key =>
        advance
        let k ← optional handles fuel [.value, .flowEntry, .flowMappingEnd] false false
        let v ← flowValue handles fuel .flowMappingEnd
        flowPairs handles fuel false (done ++ [(k, v)])
      | _ =>
        let k ← node handles fuel false false
        flowPairs handles fuel false (done ++ [(k, empty none)])
end

def directives (version : Bool) (handles : List (String × String)) :
    List Token → Option (List (String × String) × List Token)
  | .version major minor :: rest =>
    if version ∨ major ≠ 1 ∨ (minor ≠ 1 ∧ minor ≠ 2) then none else directives true handles rest
  | .handle name expansion :: rest =>
    if handles.any fun h => h.1 == name then none
    else directives version ((name, expansion) :: handles) rest
  | rest => some (handles, rest)

inductive Content
  | nothing
  | document (root : Node)

def ofDocument? (handles : List (String × String)) (marked : Bool) (tokens : List Token) :
    Option Content := do
  let fuel := 4 * tokens.length + 8
  let handles := handles ++ usualHandles
  let closing := if marked then [Token.documentStart, .documentEnd] else []
  let atEnd := isAbsent closing tokens.head? || match tokens.head? with
    | some (.version _ _) => marked
    | some (.handle _ _) => marked
    | _ => false
  let (root, r) ← if atEnd then some (empty none, ⟨tokens, []⟩)
    else (node handles fuel true false).run ⟨tokens, []⟩
  if (r.tokens.dropWhile (· == .documentEnd)).isEmpty then some (.document root) else none

def ofTokens? (tokens : List Token) : Option Content := do
  if tokens.isEmpty then some .nothing
  else
    let (handles, rest) ← directives false [] tokens
    match rest with
    | .documentStart :: rest => ofDocument? handles true rest
    | rest => if rest.length = tokens.length then ofDocument? handles false rest else none

def ofText? (text : String) : Option Content := do ofTokens? (← Token.ofText? text)

end Node
end FleetControl.Yaml
