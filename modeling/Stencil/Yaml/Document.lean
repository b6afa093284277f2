/-
  Documents: the node that the tokens of a text write.

  A text holds one document, and nothing behind it.  In block style a key or an element without a node
  has one of which nothing is written; so has the value of a key without a colon.

  An anchor gets a number before the node behind it is read, so the node may hold aliases of itself.
  The number is how many names are in use.  A name that is given again takes a new number and adds no
  name, so the anchor that follows gets the same number, and its node replaces the other one.

  Of two nested calls below at least one takes a token, so twice the number of tokens bounds them.
-/
import Stencil.Keyed
import Stencil.Yaml.Node
import Stencil.Yaml.Token.Lexer

namespace Stencil.Yaml

/-- The meaning of tag handles. -/
abbrev Handles := List (String × String)

namespace Handles

/-- The handles that have a meaning in every document. -/
def standard : Handles := [("!", "!"), ("!!", "tag:yaml.org,2002:")]

/-- The tag that is written; none if its handle has no meaning. -/
def tag? (hs : Handles) (t : WrittenTag) : Option String :=
  if t.handle.isEmpty then some t.suffix else (hs.lookup t.handle).map (· ++ t.suffix)

end Handles

/-- What is known while a document is read. -/
structure Reading where
  tokens : List Token
  handles : Handles
  /-- The names of anchors, and the number of the last anchor of each. -/
  numbers : List (String × Nat) := []

/-- Reads a part of a document. -/
abbrev Reader (α : Type) := StateT Reading Option α

namespace Reader

/-- The next token. -/
def peek : Reader (Option Token) := return (← get).tokens.head?

/-- Passes over a token. -/
def advance : Reader Unit := modify fun r => { r with tokens := r.tokens.drop 1 }

/-- Passes over a token that has to stand here. -/
def expect (t : Token) : Reader Unit := do
  if (← peek) = some t then advance else failure

/-- Does one of some tokens come next? -/
def comes (ts : List Token) : Reader Bool := return (← peek).any ts.contains

/-- Reads an anchor, if there is one, and gives it its number. -/
def readAnchor : Reader (Option Nat) := do
  match (← peek) with
  | some (.anchor name) =>
    advance
    let number := (← get).numbers.length
    modify fun r => { r with numbers := insertKey name number r.numbers }
    return some number
  | _ => return none

/-- Reads a tag, if there is one. -/
def readTag : Reader (Option String) := do
  match (← peek) with
  | some (.tag t) =>
    advance
    let tag ← StateT.lift ((← get).handles.tag? t)
    return some tag
  | _ => return none

/-- Reads the properties in front of a node, in either order. -/
def readProperties : Reader Properties := do
  match (← readAnchor) with
  | some number => return { anchor := some number, tag := ← readTag }
  | none =>
    let tag ← readTag
    if tag.isNone then return {} else return { anchor := ← readAnchor, tag }

/-- The node of which only properties are written; there have to be some. -/
def bare (p : Properties) : Reader Node :=
  if p = {} then failure else return .scalar p ⟨"", .plain⟩

mutual

/-- Reads a node.  `block` tells whether it may be a block collection, `flush` whether it may be a
    sequence at the column of the mapping that it is a value in. -/
def readNode : (fuel : Nat) → (block flush : Bool) → Reader Node
  | 0, _, _ => failure
  | fuel + 1, block, flush => do
    if let some (.aliasOf name) ← peek then
      advance
      let number ← StateT.lift ((← get).numbers.lookup name)
      return .aliasOf number
    let p ← readProperties
    match (← peek) with
    | some (.scalar s) =>
      advance
      return .scalar (if p.tag = some "!" then { p with tag := none } else p) s
    | some .flowSequence =>
      advance
      return .sequence p (← readFlowElements fuel true)
    | some .flowMapping =>
      advance
      return .mapping p (← readFlowEntries fuel true)
    | some .blockSequence =>
      if block then
        advance
        return .sequence p (← readElements fuel)
      else bare p
    | some .blockMapping =>
      if block then
        advance
        return .mapping p (← readEntries fuel)
      else bare p
    | some .element => if flush then return .sequence p (← readFlushElements fuel) else bare p
    | _ => bare p

/-- Reads a node, or nothing where one of some tokens comes. -/
def readNodeBefore : (fuel : Nat) → (block flush : Bool) → List Token → Reader Node
  | 0, _, _, _ => failure
  | fuel + 1, block, flush, ends => do
    if (← comes ends) then return .nothing else readNode fuel block flush

/-- Reads the elements of a block sequence, and its end. -/
def readElements : (fuel : Nat) → Reader (List Node)
  | 0 => failure
  | fuel + 1 => do
    if (← comes [.blockEnd]) then
      advance
      return []
    expect .element
    let x ← readNodeBefore fuel true false [.element, .blockEnd]
    return x :: (← readElements fuel)

/-- Reads the elements of a sequence at the column of a mapping. -/
def readFlushElements : (fuel : Nat) → Reader (List Node)
  | 0 => failure
  | fuel + 1 => do
    if !(← comes [.element]) then return []
    advance
    let x ← readNodeBefore fuel true false [.element, .key, .value, .blockEnd]
    return x :: (← readFlushElements fuel)

/-- Reads the entries of a block mapping, and its end. -/
def readEntries : (fuel : Nat) → Reader (List (Node × Node))
  | 0 => failure
  | fuel + 1 => do
    if (← comes [.blockEnd]) then
      advance
      return []
    expect .key
    let k ← readNodeBefore fuel true true [.key, .value, .blockEnd]
    let v ← readValue fuel true [.key, .value, .blockEnd]
    return (k, v) :: (← readEntries fuel)

/-- Reads the value of a key, which is nothing where no colon comes. -/
def readValue : (fuel : Nat) → (block : Bool) → List Token → Reader Node
  | 0, _, _ => failure
  | fuel + 1, block, ends => do
    if !(← comes [.value]) then return .nothing
    advance
    readNodeBefore fuel block block ends

/-- Reads the elements between square brackets, and the closing one. -/
def readFlowElements : (fuel : Nat) → (first : Bool) → Reader (List Node)
  | 0, _ => failure
  | fuel + 1, first => do
    if !first && !(← comes [.flowSequenceEnd]) then expect .comma
    if (← comes [.flowSequenceEnd]) then
      advance
      return []
    let x ← if (← comes [.key]) then readPair fuel else readNode fuel false false
    return x :: (← readFlowElements fuel false)

/-- Reads an element that is a mapping with one entry.  Where the key is missing, the token that stands
    in its place is passed over. -/
def readPair : (fuel : Nat) → Reader Node
  | 0 => failure
  | fuel + 1 => do
    advance
    let k ←
      if (← comes [.value, .comma, .flowSequenceEnd]) then
        advance
        pure .nothing
      else readNode fuel false false
    let v ← readValue fuel false [.comma, .flowSequenceEnd]
    return .mapping {} [(k, v)]

/-- Reads the entries between braces, and the closing one. -/
def readFlowEntries : (fuel : Nat) → (first : Bool) → Reader (List (Node × Node))
  | 0, _ => failure
  | fuel + 1, first => do
    if !first && !(← comes [.flowMappingEnd]) then expect .comma
    if (← comes [.flowMappingEnd]) then
      advance
      return []
    if (← comes [.key]) then
      advance
      let k ← readNodeBefore fuel false false [.value, .comma, .flowMappingEnd]
      let v ← readValue fuel false [.comma, .flowMappingEnd]
      return (k, v) :: (← readFlowEntries fuel false)
    else
      let k ← readNode fuel false false
      return (k, .nothing) :: (← readFlowEntries fuel false)

end

/-- Reads the directives of a document, given whether its version is known and the handles so far. -/
def directives? : (versionKnown : Bool) → Handles → List Token → Option (Handles × List Token)
  | known, hs, .version major minor :: ts =>
    if known ∨ major ≠ 1 ∨ (minor ≠ 1 ∧ minor ≠ 2) then none else directives? true hs ts
  | known, hs, .tagHandle name meaning :: ts =>
    if (hs.lookup name).isSome then none else directives? known (hs ++ [(name, meaning)]) ts
  | _, hs, ts => some (hs, ts)

/-- Is nothing written of a document whose start these tokens follow? -/
def isBlankDocument : List Token → Bool
  | [] => true
  | .version _ _ :: _ => true
  | .tagHandle _ _ :: _ => true
  | .documentStart :: _ => true
  | .documentEnd :: _ => true
  | _ => false

/-- Reads the root of a document, and what stands behind it. -/
def root? (handles : Handles) (ts : List Token) : Option (Node × List Token) :=
  ((readNode (2 * ts.length + 2) true false).run { tokens := ts, handles }).map fun (x, r) =>
    (x, r.tokens)

/-- Reads a document, and what stands behind it. -/
def document? (ts : List Token) : Option (Node × List Token) := do
  let (handles, behind) ← directives? false [] ts
  match behind with
  | .documentStart :: rest =>
    if isBlankDocument rest then return (.nothing, rest)
    root? (handles ++ Handles.standard) rest
  | rest =>
    if rest.length ≠ ts.length then none
    if rest.isEmpty then return (.nothing, rest)
    root? Handles.standard rest

end Reader

/-- The root of the document that a text holds. -/
def read? (text : String) : Option Node := do
  let (root, rest) ← Reader.document? (← Token.ofText? text)
  if rest.all fun t => t == .documentEnd then some root else none

end Stencil.Yaml
