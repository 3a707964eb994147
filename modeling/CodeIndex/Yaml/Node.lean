import CodeIndex.Yaml.Token
/-!
# YAML documents

From tokens to the value that a document writes: scalars, sequences and mappings. An alias stands
for a copy of what its anchor names; an alias inside of what it names stands for nothing that could
be written down (`Node.cycle`). Mappings keep their entries in order, doubled keys included.
-/

namespace CodeIndex.Yaml

/-- The value of a document or of a part of it. -/
inductive Node where
  | scalar (text : String) (style : Style) (tag : Option String)
  | sequence (items : List Node)
  | mapping (entries : List (Node × Node))
  | cycle
  deriving Inhabited

/-- What stands where nothing was written. -/
def Node.empty : Node := .scalar "" .plain none

/-- What is left of the tokens, and what the anchors mean so far. -/
structure Reader where
  tokens : List Token
  /-- The handles that the document declares for tags. -/
  handles : List (String × String)
  /-- The anchors, the latest first, each with the number of its node. -/
  anchors : List (String × Nat)
  /-- The nodes that have been read to the end, by number. -/
  nodes : List (Nat × Node)

namespace Reader

/-- The next token. -/
def peek (r : Reader) : Option Token := r.tokens.head?

/-- The reader behind the next token. -/
def skip (r : Reader) : Reader := { r with tokens := r.tokens.tail }

/-- The next token is one of some. -/
def at? (r : Reader) (ts : List Token) : Bool := r.peek.any ts.contains

/-- The node that an alias stands for. -/
def resolve (r : Reader) (name : String) : Except Problem Node :=
  match r.anchors.lookup name with
  | none => .error (.unknownAnchor name)
  | some number => .ok ((r.nodes.lookup number).getD .cycle)

/-- The full form of a tag. -/
def expandTag (r : Reader) (handle suffix : String) : Except Problem String :=
  if handle == "" then .ok suffix
  else
    match (r.handles ++ [("!", "!"), ("!!", "tag:yaml.org,2002:")]).lookup handle with
    | some front => .ok (front ++ suffix)
    | none => .error .undefinedTagHandle

/-- The anchor and the tag in front of a node, in either order. -/
def properties (r : Reader) : Option String × Option (String × String) × Reader :=
  match r.tokens with
  | .anchor a :: .tag h s :: rest => (some a, some (h, s), { r with tokens := rest })
  | .tag h s :: .anchor a :: rest => (some a, some (h, s), { r with tokens := rest })
  | .anchor a :: rest => (some a, none, { r with tokens := rest })
  | .tag h s :: rest => (none, some (h, s), { r with tokens := rest })
  | _ => (none, none, r)

/-- The reader in which the anchor of a node that begins is known, and the number of the node. -/
def openAnchor (r : Reader) (anchor : Option String) : Reader × Nat :=
  let number := r.anchors.length
  match anchor with
  | some a => ({ r with anchors := (a, number) :: r.anchors }, number)
  | none => (r, number)

/-- The reader in which the node of an anchor has been read to the end. -/
def closeAnchor (r : Reader) (anchor : Option String) (number : Nat) (n : Node) : Reader :=
  if anchor.isSome then { r with nodes := (number, n) :: r.nodes } else r

mutual

/-- Reads a node. Block collections may stand only where `inBlock` is true, and a sequence without
indentation of its own only in a mapping. -/
def node (fuel : Nat) (inBlock inMapping : Bool) (r : Reader) : Except Problem (Node × Reader) :=
  match fuel with
  | 0 => .error .nestedTooDeeply
  | fuel + 1 =>
    match r.peek with
    | some (.alias name) => do return (← r.resolve name, r.skip)
    | _ => do
      let (anchor, tag, r) := r.properties
      let tag ← tag.mapM fun (handle, suffix) => r.expandTag handle suffix
      let tag := tag.filter (· != "")
      let (r, number) := r.openAnchor anchor
      let (n, r) ← match r.peek with
        | some (.scalar text style) => pure (.scalar text style tag, r.skip)
        | some .flowSequence => flowItems fuel true [] r.skip
        | some .flowMapping => flowPairs fuel true [] r.skip
        | some .blockEntry =>
          if inMapping then indentlessItems fuel [] r
          else if anchor.isSome || tag.isSome then pure (.scalar "" .plain tag, r)
          else throw .expectedContent
        | some .blockSequence =>
          if inBlock then blockItems fuel [] r.skip
          else if anchor.isSome || tag.isSome then pure (.scalar "" .plain tag, r)
          else throw .expectedContent
        | some .blockMapping =>
          if inBlock then blockPairs fuel [] r.skip
          else if anchor.isSome || tag.isSome then pure (.scalar "" .plain tag, r)
          else throw .expectedContent
        | _ =>
          if anchor.isSome || tag.isSome then pure (.scalar "" .plain tag, r)
          else throw .expectedContent
      return (n, r.closeAnchor anchor number n)

/-- Reads a node unless one of the tokens `stops` follows, in front of which nothing was written. -/
def nodeUnless (fuel : Nat) (stops : List Token) (inBlock inMapping : Bool) (r : Reader) :
    Except Problem (Node × Reader) :=
  match fuel with
  | 0 => .error .nestedTooDeeply
  | fuel + 1 => if r.at? stops then .ok (.empty, r) else node fuel inBlock inMapping r

/-- Reads the items of an indented sequence; those read so far come last first. -/
def blockItems (fuel : Nat) (items : List Node) (r : Reader) : Except Problem (Node × Reader) :=
  match fuel with
  | 0 => .error .nestedTooDeeply
  | fuel + 1 =>
    match r.peek with
    | some .blockEntry => do
      let (n, r) ← nodeUnless fuel [.blockEntry, .blockEnd] true false r.skip
      blockItems fuel (n :: items) r
    | some .blockEnd => .ok (.sequence items.reverse, r.skip)
    | _ => .error .expectedEntry

/-- Reads the items of a sequence that is not indented. -/
def indentlessItems (fuel : Nat) (items : List Node) (r : Reader) :
    Except Problem (Node × Reader) :=
  match fuel with
  | 0 => .error .nestedTooDeeply
  | fuel + 1 =>
    match r.peek with
    | some .blockEntry => do
      let (n, r) ← nodeUnless fuel [.blockEntry, .key, .value, .blockEnd] true false r.skip
      indentlessItems fuel (n :: items) r
    | _ => .ok (.sequence items.reverse, r)

/-- Reads the entries of a block mapping. -/
def blockPairs (fuel : Nat) (entries : List (Node × Node)) (r : Reader) :
    Except Problem (Node × Reader) :=
  match fuel with
  | 0 => .error .nestedTooDeeply
  | fuel + 1 =>
    match r.peek with
    | some .key => do
      let stops := [.key, .value, .blockEnd]
      let (k, r) ← nodeUnless fuel stops true true r.skip
      let (v, r) ←
        if r.at? [.value] then nodeUnless fuel stops true true r.skip else pure (.empty, r)
      blockPairs fuel ((k, v) :: entries) r
    | some .blockEnd => .ok (.mapping entries.reverse, r.skip)
    | _ => .error .expectedKey

/-- Reads the items of a sequence between brackets. A key among them begins a mapping of one entry.
-/
def flowItems (fuel : Nat) (isFirst : Bool) (items : List Node) (r : Reader) :
    Except Problem (Node × Reader) :=
  match fuel with
  | 0 => .error .nestedTooDeeply
  | fuel + 1 =>
    match r.peek, isFirst with
    | some .flowSequenceEnd, _ => .ok (.sequence items.reverse, r.skip)
    | some .flowEntry, false => flowItem fuel items r.skip
    | _, true => flowItem fuel items r
    | _, false => .error .expectedFlowEntry

/-- Reads one item of a sequence between brackets, or its end. -/
def flowItem (fuel : Nat) (items : List Node) (r : Reader) : Except Problem (Node × Reader) :=
  match fuel with
  | 0 => .error .nestedTooDeeply
  | fuel + 1 =>
    match r.peek with
    | some .flowSequenceEnd => .ok (.sequence items.reverse, r.skip)
    | some .key => do
      let r := r.skip
      let stops := [.value, .flowEntry, .flowSequenceEnd]
      let (k, r) ←
        if r.at? stops then pure (.empty, r.skip) else node fuel false false r
      let (v, r) ←
        if r.at? [.value] then nodeUnless fuel [.flowEntry, .flowSequenceEnd] false false r.skip
        else pure (.empty, r)
      flowItems fuel false (.mapping [(k, v)] :: items) r
    | _ => do
      let (n, r) ← node fuel false false r
      flowItems fuel false (n :: items) r

/-- Reads the entries of a mapping between braces. -/
def flowPairs (fuel : Nat) (isFirst : Bool) (entries : List (Node × Node)) (r : Reader) :
    Except Problem (Node × Reader) :=
  match fuel with
  | 0 => .error .nestedTooDeeply
  | fuel + 1 =>
    match r.peek, isFirst with
    | some .flowMappingEnd, _ => .ok (.mapping entries.reverse, r.skip)
    | some .flowEntry, false => flowPair fuel entries r.skip
    | _, true => flowPair fuel entries r
    | _, false => .error .expectedFlowEntry

/-- Reads one entry of a mapping between braces, or its end. -/
def flowPair (fuel : Nat) (entries : List (Node × Node)) (r : Reader) :
    Except Problem (Node × Reader) :=
  match fuel with
  | 0 => .error .nestedTooDeeply
  | fuel + 1 =>
    match r.peek with
    | some .flowMappingEnd => .ok (.mapping entries.reverse, r.skip)
    | some .key => do
      let (k, r) ← nodeUnless fuel [.value, .flowEntry, .flowMappingEnd] false false r.skip
      let (v, r) ←
        if r.at? [.value] then nodeUnless fuel [.flowEntry, .flowMappingEnd] false false r.skip
        else pure (.empty, r)
      flowPairs fuel false ((k, v) :: entries) r
    | _ => do
      let (k, r) ← node fuel false false r
      flowPairs fuel false ((k, .empty) :: entries) r

end

/-- The calls of one another that reading some tokens can take. -/
def fuelFor (r : Reader) : Nat := 4 * r.tokens.length + 8

/-- Reads the directives in front of a document. -/
def directives (handles : List (String × String)) (version : Bool) :
    List Token → Except Problem (List (String × String) × List Token)
  | .version major minor :: rest =>
    if version || major != 1 || !(minor == 1 || minor == 2) then .error .badDirective
    else directives handles true rest
  | .tagHandle handle front :: rest =>
    if (handles.lookup handle).isSome then .error .badDirective
    else directives ((handle, front) :: handles) version rest
  | rest => .ok (handles, rest)

/-- The tokens that a document without content is followed by. -/
def endsContent (r : Reader) : Bool :=
  match r.peek with
  | none | some .documentStart | some .documentEnd | some (.version ..) | some (.tagHandle ..) =>
    true
  | _ => false

/-- Reads a document behind the line that begins it. -/
def content (r : Reader) : Except Problem (Node × Reader) :=
  if r.endsContent then .ok (.empty, r) else node r.fuelFor true false r

end Reader

/-- The document that a text holds; `none` when it holds none. -/
def Node.ofText? (text : String) : Except Problem (Option Node) := do
  let tokens ← tokensOf text
  let explicit :=
    match tokens with
    | .documentStart :: _ | .version .. :: _ | .tagHandle .. :: _ => true
    | _ => false
  if tokens.isEmpty then return none
  let (handles, tokens) ← Reader.directives [] false tokens
  let r : Reader := ⟨tokens, handles, [], []⟩
  if explicit && r.peek != some .documentStart then throw .expectedDocumentStart
  let (n, r) ← if explicit then r.skip.content else r.node r.fuelFor true false
  match r.tokens.dropWhile (· == .documentEnd) with
  | [] => return some n
  | .documentStart :: _ | .version .. :: _ | .tagHandle .. :: _ => throw .severalDocuments
  | _ => throw .expectedDocumentStart

end CodeIndex.Yaml
