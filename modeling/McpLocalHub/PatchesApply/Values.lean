/- Module: PatchesApply/Values
   source: internal/vcpkgmcp/patchesapply/varenv.go, internal/vcpkgmcp/patchesapply/lexer.go,
   internal/vcpkgmcp/patchesapply/walk.go
   digest: The values of CMake variables as text with the provenance of its bytes. -/

import McpLocalHub.Foundation.Kleene
import McpLocalHub.Foundation.Maps
import McpLocalHub.PatchesApply.Lexer

set_option autoImplicit false

namespace McpLocalHub.PatchesApply.Values

open CMakeGraph.Lexer (Text)
open Foundation.Kleene Foundation.Maps Lexer

def dedupStrings (texts : List Text) : List Text := texts.eraseDups

structure ProvenanceMeta where
  source : Text := []
  sourceProvenance : List Text := []
  guard : Tri := .isTrue
  guardText : Text := []
  unresolvedVars : List Text := []
  pathUnresolved : List Text := []

def certainProvenance : ProvenanceMeta := {}

inductive ProvenanceRelation
  | peer | selectedValue

def provenanceSources (m : ProvenanceMeta) : List Text :=
  dedupStrings (m.sourceProvenance ++ if m.source ≠ [] then [m.source] else [])

def mergeSource (left right : Text) : Text :=
  if left = [] then right else if right = [] ∨ left = right then left else []

def joinGuardText (left right : Text) : Text :=
  if left = [] then right
  else if right = [] ∨ right = left then left
  else left ++ " AND ".toList ++ right

def mergeProvenance (left right : ProvenanceMeta) (relation : ProvenanceRelation) : ProvenanceMeta where
  guard := kleeneAnd left.guard right.guard
  guardText := joinGuardText left.guardText right.guardText
  unresolvedVars := dedupStrings (left.unresolvedVars ++ right.unresolvedVars)
  pathUnresolved := dedupStrings (left.pathUnresolved ++ right.pathUnresolved)
  sourceProvenance := dedupStrings (provenanceSources left ++ provenanceSources right)
  source := match relation with
    | .selectedValue => right.source
    | .peer => mergeSource left.source right.source

def combineProvenance (left right : ProvenanceMeta) : ProvenanceMeta := mergeProvenance left right .peer

def joinNul (texts : List Text) : Text := ['\x00'].intercalate texts

def sameProvenance (left right : ProvenanceMeta) : Bool :=
  left.source = right.source && joinNul left.sourceProvenance = joinNul right.sourceProvenance &&
    left.guard = right.guard && left.guardText = right.guardText &&
    joinNul left.unresolvedVars = joinNul right.unresolvedVars &&
    joinNul left.pathUnresolved = joinNul right.pathUnresolved

structure ProvenanceSpan where
  start : ℕ
  stop : ℕ
  prov : ProvenanceMeta
  literalReferences : Bool := false

inductive Issue
  | malformedReference | nestedNameUnresolved | cycle | depthExceeded | byteBudgetExceeded
  deriving DecidableEq

structure SerializedValue where
  text : Text := []
  spans : List ProvenanceSpan := []
  resolution : Option Issue := none

/-- One byte of an `evaluatedValue`, with what its three slices have at its index. -/
structure EvaluatedByte where
  byte : Char
  prov : ProvenanceMeta
  protectedSemicolon : Bool

structure SemanticItem where
  text : Text
  display : Text
  prov : ProvenanceMeta
  spans : List ProvenanceSpan
  literalReferences : Bool

structure VarEnv where
  values : Map Text SerializedValue
  inactiveValues : Map Text (List SerializedValue)
  vcpkgRoot : Text
  portName : Text
  portDir : Text

def VarEnv.setValue (env : VarEnv) (name : Text) (value : SerializedValue) : VarEnv :=
  { env with values := env.values.insert name value }

def VarEnv.unsetValue (env : VarEnv) (name : Text) (prov : ProvenanceMeta) : VarEnv :=
  match prov.guard with
  | .isFalse => env
  | .isTrue => { env with values := env.values.erase name }
  | .unknown =>
    match env.values.lookup name with
    | none => env
    | some value => env.setValue name { value with spans := [⟨0, value.text.length, prov, false⟩] }

def newVarEnv (portDir portName vcpkgRoot : Text) (overrides tripletFacts : List (Text × Text)) :
    VarEnv :=
  (tripletFacts ++ overrides).foldl (fun env fact => env.setValue fact.1 { text := fact.2 })
    ⟨∅, ∅, vcpkgRoot, portName, portDir⟩

def spanAt (spans : List ProvenanceSpan) (i : ℕ) : Option ProvenanceSpan :=
  spans.find? (fun span => span.start ≤ i ∧ i < span.stop)

def serializedMetaAt (value : SerializedValue) (i : ℕ) : ProvenanceMeta :=
  match spanAt value.spans i with
  | some span => span.prov
  | none => certainProvenance

def serializedReferenceLiteralAt (value : SerializedValue) (i : ℕ) : Bool :=
  match spanAt value.spans i with
  | some span => span.literalReferences
  | none => false

def VarEnv.serializedFor (env : VarEnv) (name : Text) : Option SerializedValue :=
  if name = "PORT".toList then some { text := env.portName }
  else if name = "CURRENT_PORT_DIR".toList then some { text := env.portDir }
  else env.values.lookup name

structure Reference where
  start : ℕ
  stop : ℕ
  env : Bool
  inner : Text

def openerWidth (text : Text) : ℕ :=
  if "$ENV\x7b".toList.isPrefixOf text then 5 else if "$\x7b".toList.isPrefixOf text then 2 else 0

def closeAt : Text → (skip depth : ℕ) → Option ℕ
  | [], _, _ => none
  | _ :: rest, skip + 1, depth => (closeAt rest skip depth).map (· + 1)
  | c :: rest, 0, depth =>
    match openerWidth (c :: rest) with
    | width + 1 => (closeAt rest width (depth + 1)).map (· + 1)
    | 0 =>
      if c = '\x7d' then
        if depth = 1 then some 0 else (closeAt rest 0 (depth - 1)).map (· + 1)
      else (closeAt rest 0 depth).map (· + 1)

inductive ReferenceScan
  | none
  | found (reference : Reference)
  | malformed

def scanNext : Text → (pos : ℕ) → ReferenceScan
  | [], _ => .none
  | c :: rest, pos =>
    if c ≠ '$' ∨ rest.length < 2 then scanNext rest (pos + 1)
    else if "$ENV\x7b".toList.isPrefixOf (c :: rest) then
      match closeAt (rest.drop 4) 0 1 with
      | some n => .found ⟨pos, pos + 5 + n + 1, true, (rest.drop 4).take n⟩
      | none => .malformed
    else if rest.head? ≠ some '\x7b' then scanNext rest (pos + 1)
    else
      match closeAt (rest.drop 1) 0 1 with
      | some n => .found ⟨pos, pos + 2 + n + 1, false, (rest.drop 1).take n⟩
      | none => .malformed

inductive Segment
  | literal (start stop : ℕ)
  | reference (reference : Reference)
  | malformed

def segmentsFrom : (fuel : ℕ) → Text → (offset : ℕ) → List Segment
  | 0, _, _ => []
  | fuel + 1, text, offset =>
    if text = [] then []
    else
      match scanNext text 0 with
      | .malformed => [.malformed]
      | .none => [.literal offset (offset + text.length)]
      | .found r =>
        .literal offset (offset + r.start) ::
          .reference ⟨offset + r.start, offset + r.stop, r.env, r.inner⟩ ::
          segmentsFrom fuel (text.drop r.stop) (offset + r.stop)

def segments (text : Text) : List Segment := segmentsFrom (text.length + 1) text 0

/-! An evaluation appends bytes to a value and takes them from a budget. A failure clears the value, so
that it leaves nothing but its issue. -/

def maxPortfileBytes : ℕ := 262144

def maxVariableDereferenceDepth : ℕ := 32

abbrev Output := Except Issue (List EvaluatedByte × ℕ)

def emit (bytes : List EvaluatedByte) (remaining : ℕ) : Output :=
  if bytes.length ≤ remaining then .ok (bytes, remaining - bytes.length)
  else .error .byteBudgetExceeded

def Output.andThen (first : Output) (second : ℕ → Output) : Output :=
  match first with
  | .error issue => .error issue
  | .ok (bytes, remaining) =>
    match second remaining with
    | .error issue => .error issue
    | .ok (more, left) => .ok (bytes ++ more, left)

def literalBytes (text : Text) (prov : ProvenanceMeta) : List EvaluatedByte :=
  text.map (fun c => ⟨c, prov, false⟩)

def bareBytes (prov : ProvenanceMeta) : Text → List EvaluatedByte
  | '\\' :: '\n' :: rest => bareBytes prov rest
  | '\\' :: '\r' :: '\n' :: rest => bareBytes prov rest
  | '\\' :: 't' :: rest => ⟨'\t', prov, false⟩ :: bareBytes prov rest
  | '\\' :: 'r' :: rest => ⟨'\r', prov, false⟩ :: bareBytes prov rest
  | '\\' :: 'n' :: rest => ⟨'\n', prov, false⟩ :: bareBytes prov rest
  | '\\' :: next :: rest =>
    if isAlphanumeric next then ⟨'\\', prov, false⟩ :: ⟨next, prov, false⟩ :: bareBytes prov rest
    else ⟨next, prov, next = ';'⟩ :: bareBytes prov rest
  | c :: rest => ⟨c, prov, false⟩ :: bareBytes prov rest
  | [] => []

def rangeBytes (value : SerializedValue) (callMeta : ProvenanceMeta) (start stop : ℕ) :
    List EvaluatedByte :=
  ((value.text.take stop).drop start).mapIdx (fun i c =>
    ⟨c, mergeProvenance callMeta (serializedMetaAt value (start + i)) .selectedValue, false⟩)

/-- How a reference is appended: with the provenance of the place, the names under way, and whether it
is part of a name. -/
abbrev Refer := Reference → ProvenanceMeta → List Text → Bool → ℕ → Output

def appendSource (refer : Refer) (source : Text) (bare : Bool) (callMeta : ProvenanceMeta)
    (active : List Text) (nestedName : Bool) : List Segment → ℕ → Output
  | [], remaining => .ok ([], remaining)
  | .malformed :: _, _ => .error .malformedReference
  | .literal start stop :: later, remaining =>
    let text := (source.take stop).drop start
    (emit (if bare then bareBytes callMeta text else literalBytes text callMeta) remaining).andThen
      (appendSource refer source bare callMeta active nestedName later)
  | .reference r :: later, remaining =>
    (refer r callMeta active nestedName remaining).andThen
      (appendSource refer source bare callMeta active nestedName later)

def appendSerializedResolved (refer : Refer) (value : SerializedValue) (callMeta : ProvenanceMeta)
    (active : List Text) : List Segment → ℕ → Output
  | [], remaining => .ok ([], remaining)
  | .malformed :: _, _ => .error .malformedReference
  | .literal start stop :: later, remaining =>
    (emit (rangeBytes value callMeta start stop) remaining).andThen
      (appendSerializedResolved refer value callMeta active later)
  | .reference r :: later, remaining =>
    (if serializedReferenceLiteralAt value r.start then
      emit (rangeBytes value callMeta r.start r.stop) remaining
    else refer r (mergeProvenance callMeta (serializedMetaAt value r.start) .peer) active false
      remaining).andThen
      (appendSerializedResolved refer value callMeta active later)

def containsOpener : Text → Bool
  | [] => false
  | c :: rest => openerWidth (c :: rest) ≠ 0 || containsOpener rest

def resolveName (refer : Refer) (inner : Text) (active : List Text) (remaining : ℕ) :
    Except Issue (Text × ProvenanceMeta × ℕ) :=
  if containsOpener inner then
    match appendSource refer inner false certainProvenance active true (segments inner) remaining with
    | .error issue => .error issue
    | .ok ([], _) => .error .nestedNameUnresolved
    | .ok (bytes, left) =>
      .ok (bytes.map (fun b => b.byte),
        bytes.foldl (fun m b => mergeProvenance m b.prov .peer) certainProvenance, left)
  else .ok (inner, certainProvenance, remaining)

/-- `appendValueReference`; the number is how many references may still be entered. -/
def appendValueReference (env : VarEnv) : ℕ → Refer
  | 0, _, _, _, _, _ => .error .depthExceeded
  | depth + 1, r, callMeta, active, nestedName, remaining =>
    match resolveName (appendValueReference env depth) r.inner active remaining with
    | .error issue => .error issue
    | .ok (name, nameMeta, remaining) =>
      if r.env then
        if name = "VCPKG_ROOT".toList ∧ env.vcpkgRoot ≠ [] then
          emit (literalBytes env.vcpkgRoot (mergeProvenance callMeta nameMeta .peer)) remaining
        else if nestedName then .error .nestedNameUnresolved
        else
          let shown := "$ENV\x7b".toList ++ name ++ ['\x7d']
          let unresolved := { callMeta with
            pathUnresolved := dedupStrings (callMeta.pathUnresolved ++ [shown]) }
          emit (literalBytes shown (mergeProvenance unresolved nameMeta .peer)) remaining
      else if name = [] then .error .nestedNameUnresolved
      else
        match env.serializedFor name with
        | none =>
          if nestedName ∨ r.inner ≠ name then .error .nestedNameUnresolved
          else
            let unresolved := { callMeta with
              pathUnresolved := dedupStrings (callMeta.pathUnresolved ++ [name]) }
            emit (literalBytes ("$\x7b".toList ++ name ++ ['\x7d']) unresolved) remaining
        | some value =>
          match value.resolution with
          | some issue => .error issue
          | none =>
            if name ∈ active then .error .cycle
            else appendSerializedResolved (appendValueReference env depth) value
              (mergeProvenance callMeta nameMeta .peer) (name :: active)
              (segments value.text) remaining

def VarEnv.evaluateValue (env : VarEnv) (t : Token) (callMeta : ProvenanceMeta) :
    Except Issue (List EvaluatedByte) :=
  Except.map Prod.fst
    (if t.raw then emit (literalBytes t.text callMeta) maxPortfileBytes
    else
      let source := if t.quoted then t.text else t.listText
      appendSource (appendValueReference env maxVariableDereferenceDepth) source (!t.quoted) callMeta []
        false (segments source) maxPortfileBytes)

def exactReference (t : Token) : Bool :=
  !t.quoted && match scanNext t.text 0 with
    | .found r => r.start = 0 && r.stop = t.text.length
    | _ => false

def combineItemProvenance (metas : List ProvenanceMeta) : ProvenanceMeta :=
  metas.foldl combineProvenance certainProvenance

def spansFrom : List ProvenanceMeta → (i start : ℕ) → ProvenanceMeta → List ProvenanceSpan
  | [], i, start, first => [⟨start, i, first, false⟩]
  | m :: rest, i, start, first =>
    if sameProvenance first m then spansFrom rest (i + 1) start first
    else ⟨start, i, first, false⟩ :: spansFrom rest (i + 1) i m

def spansFromMetas : List ProvenanceMeta → List ProvenanceSpan
  | [] => []
  | m :: rest => spansFrom rest 1 0 m

def itemOf (bytes : List EvaluatedByte) (literalReferences : Bool) : SemanticItem where
  text := bytes.map (fun b => b.byte)
  display := bytes.map (fun b => b.byte)
  prov := combineItemProvenance (bytes.map (fun b => b.prov))
  spans := spansFromMetas (bytes.map (fun b => b.prov))
  literalReferences := literalReferences

def flush (current : List EvaluatedByte) (later : List (List EvaluatedByte)) :
    List (List EvaluatedByte) := if current = [] then later else current :: later

def splitBytes : List EvaluatedByte → (current : List EvaluatedByte) → (opens closes : ℕ) →
    List (List EvaluatedByte)
  | [], current, _, _ => flush current []
  | b :: rest, current, opens, closes =>
    if b.byte = '[' then splitBytes rest (current ++ [b]) (opens + 1) closes
    else if b.byte = ']' then splitBytes rest (current ++ [b]) opens (closes + 1)
    else if b.byte = ';' then
      if b.protectedSemicolon ∨ opens ≠ closes then splitBytes rest (current ++ [b]) opens closes
      else if (current.getLast?.map (fun b => b.byte)) = some '\\' then
        splitBytes rest (current.dropLast ++ [b]) opens closes
      else flush current (splitBytes rest [] 0 0)
    else splitBytes rest (current ++ [b]) opens closes

def splitCMakeList (t : Token) (bytes : List EvaluatedByte) : List SemanticItem :=
  if t.quoted ∨ t.raw then [itemOf bytes t.raw]
  else (splitBytes bytes [] 0 0).map (fun piece => itemOf piece false)

def displayed (t : Token) : List SemanticItem → List SemanticItem
  | [item] =>
    if item.text = [] then [item]
    else if exactReference t ∧ item.prov.source ≠ [] then [{ item with display := item.prov.source }]
    else [{ item with display := t.text }]
  | items => items

structure Call where
  active : Tri
  guardText : Text
  unresolvedVars : List Text

def Call.prov (call : Call) : ProvenanceMeta where
  guard := call.active
  guardText := call.guardText
  unresolvedVars := dedupStrings call.unresolvedVars

def semanticItemsFromToken (t : Token) (env : VarEnv) (call : Call) :
    Except Issue (List SemanticItem) :=
  Except.map (fun bytes => displayed t (splitCMakeList t bytes)) (env.evaluateValue t call.prov)

def ProvenanceSpan.shift (offset : ℕ) (span : ProvenanceSpan) : ProvenanceSpan :=
  { span with start := offset + span.start, stop := offset + span.stop }

def SerializedValue.extend (value : SerializedValue) (text : Text) (spans : List ProvenanceSpan) :
    SerializedValue :=
  { value with
    text := value.text ++ text
    spans := value.spans ++ spans.map (ProvenanceSpan.shift value.text.length) }

def ownSpan (item : SemanticItem) (span : ProvenanceSpan) : ProvenanceSpan :=
  { span with
    prov := if span.prov.source = [] then { span.prov with source := item.display } else span.prov
    literalReferences := item.literalReferences }

def itemSpans (item : SemanticItem) : List ProvenanceSpan :=
  let spans := if item.spans = [] ∧ item.text ≠ [] then [⟨0, item.text.length, item.prov, false⟩]
    else item.spans
  spans.map (ownSpan item)

def separatorMeta (value : SerializedValue) : ProvenanceMeta :=
  match value.spans.getLast? with
  | some span => span.prov
  | none => certainProvenance

def pushItem (value : SerializedValue) (item : SemanticItem) : SerializedValue :=
  value.extend item.text (itemSpans item)

def pushSeparator (value : SerializedValue) : SerializedValue :=
  value.extend [';'] [⟨0, 1, separatorMeta value, false⟩]

def serializeItems : List SemanticItem → SerializedValue
  | [] => {}
  | first :: rest =>
    rest.foldl (fun value item => pushItem (pushSeparator value) item) (pushItem {} first)

def mergeResolution (left right : Option Issue) : Option Issue := left.orElse (fun _ => right)

/-- `appendSerializedValue`; the spans that are appended are not marked as literal. -/
def appendSerializedValue (existing appended : SerializedValue) : SerializedValue :=
  let resolution := mergeResolution existing.resolution appended.resolution
  if existing.text = [] then { appended with resolution := resolution }
  else if appended.text = [] then { existing with resolution := resolution }
  else
    { (pushSeparator existing).extend appended.text
        (appended.spans.map (fun span => { span with literalReferences := false })) with
      resolution := resolution }

end McpLocalHub.PatchesApply.Values
