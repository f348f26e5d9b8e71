/- Module: CMakeGraph/Traversal
   source: internal/cmakegraph/cmakegraph.go
   digest: The walk over the include() and add_subdirectory() calls of a tree, with its caps and
   holes. -/

import Mathlib.Algebra.Order.Ring.Int
import Mathlib.Data.List.Sort
import McpLocalHub.CMakeGraph.Arguments

set_option autoImplicit false

namespace McpLocalHub.CMakeGraph.Traversal

open Lexer Arguments

inductive Stat
  | notExist | failed | regular | dir | other
  deriving DecidableEq

inductive Opened
  | failed (text : Text)
  | irregular
  | regular (content : Text)
  deriving DecidableEq

structure WalkEntry where
  path : Path
  error : Option Text := none
  isDir : Bool := false
  isDirectorySymlink : Bool := false

/-- The tree as the operating system shows it, which does not change. What `filepath.EvalSymlinks`
returns has no symlink left. -/
structure Platform where
  cwd : Path
  toLower : Text → Text
  equalFold : Text → Text → Bool
  evalSymlinks : Path → Option Path
  stat : Path → Stat
  sameFile : Path → Path → Bool
  openRoot : Path → Bool
  openRegular : Path → Opened
  /-- The callbacks of a walk that is not ended early; a directory symlink is not entered. -/
  walkDir : Path → List WalkEntry
  evalSymlinks_stable : ∀ path real, evalSymlinks path = some real → evalSymlinks real = some real

def Platform.abs (p : Platform) (text : Text) : Path :=
  if isAbs text then cleanFrom [] text else cleanFrom p.cwd text

def Platform.canonicalize (p : Platform) (path : Path) : Path := (p.evalSymlinks path).getD path

def Platform.nearestAncestor (p : Platform) (whole : Path) : (above below : Path) → Path
  | [], below =>
    match p.evalSymlinks [] with
    | some real => real ++ below
    | none => whole
  | element :: above, below =>
    match p.evalSymlinks (element :: above).reverse with
    | some real => real ++ below
    | none => p.nearestAncestor whole above (element :: below)

def Platform.realOrNearestAncestor (p : Platform) (path : Path) : Path :=
  p.nearestAncestor path path.reverse []

def Platform.filesystemNameMatches (p : Platform) (path : Path) (expectedBase : Text) : Bool :=
  let actualBase := path.getLastD []
  decide (actualBase = expectedBase) ||
    (p.equalFold actualBase expectedBase && p.sameFile path (path.dropLast ++ [expectedBase]))

inductive Status
  | resolved | dangling | optionalAbsent | unresolved
  deriving DecidableEq

structure Edge where
  kind : EdgeKind
  fromFile : Path
  line : ℕ
  rawArg : Text
  status : Status
  reason : Option Reason := none
  resolvedPath : Option Path := none
  conditional : Bool

inductive CoverageReason
  | byteCapExceeded | fileUnreadable | enumerateFailed | rootOutsideWorkspace
  | rootEnumerationCapped | symlinkDirectorySkipped | edgeCapExceeded | commandCapExceeded
  | controlFlowInvalid

structure UnscannedFile where
  path : Path
  reason : CoverageReason
  detail : Text

def byteLength (text : Text) : ℕ := (text.map Char.utf8Size).sum

def CoverageReason.text : CoverageReason → Text
  | .byteCapExceeded => "byte_cap_exceeded".toList
  | .fileUnreadable => "file_unreadable".toList
  | .enumerateFailed => "enumerate_failed".toList
  | .rootOutsideWorkspace => "root_outside_workspace".toList
  | .rootEnumerationCapped => "root_enumeration_capped".toList
  | .symlinkDirectorySkipped => "symlink_directory_skipped".toList
  | .edgeCapExceeded => "edge_cap_exceeded".toList
  | .commandCapExceeded => "command_cap_exceeded".toList
  | .controlFlowInvalid => "control_flow_invalid".toList

def decimal (n : ℕ) : Text := Nat.toDigits 10 n

def UnscannedFile.retainedCoverageBytes (hole : UnscannedFile) : ℤ :=
  64 + byteLength hole.path.text + byteLength hole.reason.text + byteLength hole.detail

def Edge.retainedEdgeBytes (edge : Edge) : ℤ :=
  128 + byteLength edge.kind.text + byteLength edge.fromFile.text + byteLength edge.rawArg +
    byteLength ((edge.reason.map Reason.text).getD []) +
    byteLength ((edge.resolvedPath.map Path.text).getD [])

structure Options where
  maxDepth : ℤ := 0
  maxNodes : ℤ := 0
  maxFileBytes : ℤ := 0
  maxRoots : ℤ := 0
  maxVisitedEntries : ℤ := 0

structure Limits where
  maxDepth : ℕ
  maxNodes : ℕ
  maxFileBytes : ℕ
  maxRoots : ℕ
  maxVisitedEntries : ℕ

def maxLimits : Limits where
  maxDepth := 64
  maxNodes := 20000
  maxFileBytes := 4194304
  maxRoots := 200000
  maxVisitedEntries := 200000

def maxCommandInvocationsLimit : ℕ := 65536
def maxRetainedRootPathBytesLimit : ℕ := 8388608
def maxEntryFilters : ℕ := 64
def maxEntryFilterBytes : ℕ := 8192
def maxEdgesLimit : ℕ := 20000
def maxRetainedEdgeBytesLimit : ℤ := 8388608
def maxCoverageHolesLimit : ℕ := 4096
def maxRetainedCoverageBytesLimit : ℤ := 2097152

def normalizedLimit (value : ℤ) (maximum : ℕ) : Option ℕ :=
  if value ≤ 0 then some maximum else if (maximum : ℤ) < value then none else some value.toNat

def Options.normalized (o : Options) : Option Limits := do
  let maxDepth ← normalizedLimit o.maxDepth maxLimits.maxDepth
  let maxNodes ← normalizedLimit o.maxNodes maxLimits.maxNodes
  let maxFileBytes ← normalizedLimit o.maxFileBytes maxLimits.maxFileBytes
  let maxRoots ← normalizedLimit o.maxRoots maxLimits.maxRoots
  let maxVisitedEntries ← normalizedLimit o.maxVisitedEntries maxLimits.maxVisitedEntries
  some ⟨maxDepth, maxNodes, maxFileBytes, maxRoots, maxVisitedEntries⟩

structure VisitKey where
  file : Path
  ctx : SourceContext
  deriving DecidableEq

def dedupCtx (ctx : SourceContext) : SourceContext := if ctx.verified then ctx else ⟨[], false⟩

structure Walker where
  opts : Limits
  workspaceRoot : Path
  realWorkspaceRoot : Path
  visited : List VisitKey := []
  files : List Path := []
  edges : List Edge := []
  retainedEdgeBytes : ℤ := 0
  unscanned : List UnscannedFile := []
  retainedCoverageBytes : ℤ := 0
  coverageCapTruncated : Bool := false
  droppedCoverageHoles : ℕ := 0
  nodeCapTruncated : Bool := false
  rootsSkippedByNodeCap : ℕ := 0
  rootEnumerationCapped : Bool := false
  edgeCapTruncated : Bool := false
  rootsSkippedByEdgeCap : ℕ := 0
  /-- The edges that were retracted. No function reads them. -/
  takenBack : List Edge := []

variable (p : Platform)

def Walker.withinWorkspace (w : Walker) (path : Path) : Bool :=
  w.realWorkspaceRoot.isPrefixOf (p.realOrNearestAncestor path)

def Walker.recordCoverage (w : Walker) (path : Path) (reason : CoverageReason) (detail : Text) :
    Walker :=
  let hole : UnscannedFile := ⟨p.canonicalize path, reason, detail⟩
  let bytes := hole.retainedCoverageBytes
  if maxCoverageHolesLimit ≤ w.unscanned.length ∨
      maxRetainedCoverageBytesLimit - w.retainedCoverageBytes < bytes then
    { w with coverageCapTruncated := true, droppedCoverageHoles := w.droppedCoverageHoles + 1 }
  else
    { w with
      unscanned := w.unscanned ++ [hole]
      retainedCoverageBytes := w.retainedCoverageBytes + bytes }

def Walker.appendEdge (w : Walker) (edge : Edge) : Walker × Bool :=
  let bytes := edge.retainedEdgeBytes
  if maxEdgesLimit ≤ w.edges.length ∨ maxRetainedEdgeBytesLimit - w.retainedEdgeBytes < bytes then
    let recorded := if w.edgeCapTruncated then w
      else w.recordCoverage p edge.fromFile .edgeCapExceeded
        ("stopped retaining edges at count=".toList ++ decimal w.edges.length ++ " bytes=".toList ++
          decimal w.retainedEdgeBytes.toNat ++ " (limits: count=".toList ++ decimal maxEdgesLimit ++
          " bytes=".toList ++ decimal maxRetainedEdgeBytesLimit.toNat ++ ")".toList)
    ({ recorded with edgeCapTruncated := true }, false)
  else
    ({ w with
      edges := w.edges ++ [edge]
      retainedEdgeBytes := w.retainedEdgeBytes + bytes }, true)

def Walker.retractEdges (w : Walker) (start : ℕ) : Walker :=
  if w.edges.length ≤ start then w
  else
    { w with
      edges := w.edges.take start
      takenBack := w.takenBack ++ w.edges.drop start
      retainedEdgeBytes := w.retainedEdgeBytes -
        ((w.edges.drop start).map Edge.retainedEdgeBytes).sum }

structure ReadError where
  byteCapExceeded : Bool
  text : Text

def readCoverageReason (err : ReadError) : CoverageReason :=
  if err.byteCapExceeded then .byteCapExceeded else .fileUnreadable

def Walker.readPinnedRoot (w : Walker) (path : Path) : Except ReadError Text :=
  if !w.realWorkspaceRoot.isPrefixOf path then
    .error ⟨false, "cmakegraph: root ".toList ++ path.text ++ " is outside workspace root ".toList ++
      w.realWorkspaceRoot.text⟩
  else
    match p.openRegular path with
    | .failed text => .error ⟨false, text⟩
    | .irregular =>
      .error ⟨false, "cmakegraph: start file ".toList ++ path.text ++ " is not a regular file".toList⟩
    | .regular content =>
      if w.opts.maxFileBytes < byteLength content then
        .error ⟨true, "cmakegraph: file exceeds byte cap: ".toList ++ path.text ++ " (".toList ++
          decimal (byteLength content) ++ " > ".toList ++ decimal w.opts.maxFileBytes ++ ")".toList⟩
      else .ok content

inductive FrameKind
  | ifFrame | foreachFrame | whileFrame
  deriving DecidableEq

structure Frame where
  kind : FrameKind
  edgeStart : ℕ
  line : ℕ

inductive Role
  | opens (kind : FrameKind)
  | closes (kind : FrameKind)
  | beginsMacro
  | endsMacro
  | call (kind : EdgeKind)
  | other
  deriving DecidableEq

def role (c : Command) : Role :=
  if c.name = "if".toList then .opens .ifFrame
  else if c.name = "foreach".toList then .opens .foreachFrame
  else if c.name = "while".toList then .opens .whileFrame
  else if c.name = "endif".toList then .closes .ifFrame
  else if c.name = "endforeach".toList then .closes .foreachFrame
  else if c.name = "endwhile".toList then .closes .whileFrame
  else if c.name = "macro".toList ∨ c.name = "function".toList then .beginsMacro
  else if c.name = "endmacro".toList ∨ c.name = "endfunction".toList then .endsMacro
  else if c.name = "include".toList then .call .include
  else if c.name = "add_subdirectory".toList then .call .addSubdirectory
  else .other

/-- What the loop over the commands of one file reads; `remaining` is how many levels may be entered
below it. -/
structure Scope where
  file : Path
  data : Text
  ctx : SourceContext
  remaining : ℕ
  ancestors : List Path

def Scope.line (scope : Scope) (c : Command) : ℕ :=
  lineFromIndex (buildLineIndex scope.data) c.nameOffset

def Scope.arguments (scope : Scope) (kind : EdgeKind) (c : Command) : Text × Bool × Bool :=
  if c.malformed then ([], true, false)
  else
    let argText := (scope.data.drop c.argStart).take (c.argEnd - c.argStart)
    let (rawArg, ok) := firstArgument argText
    if !ok then (rawArg, true, false)
    else
      match kind with
      | .include =>
        match includeArgumentOptional argText with
        | none => (rawArg, true, false)
        | some optional => (rawArg, false, optional)
      | .addSubdirectory => (rawArg, !addSubdirectoryArgumentsValid argText, false)

inductive Target
  | wrongType
  | unreadable
  | absent
  | file (path : Path)

def targetPath (kind : EdgeKind) (candidate : Path) : Path :=
  match kind with
  | .include => candidate
  | .addSubdirectory => candidate ++ ["CMakeLists.txt".toList]

def findTarget (kind : EdgeKind) (candidate : Path) : Target :=
  match kind, p.stat candidate with
  | _, .failed => .unreadable
  | .include, .regular => .file (targetPath .include candidate)
  | .include, .dir => .wrongType
  | .include, .other => .unreadable
  | .addSubdirectory, .dir =>
    match p.stat (targetPath .addSubdirectory candidate) with
    | .failed => .unreadable
    | .regular => .file (targetPath .addSubdirectory candidate)
    | .other => .unreadable
    | _ => .absent
  | _, _ => .absent

def newContext (kind : EdgeKind) (ctx : SourceContext) (candidate : Path) : SourceContext :=
  match kind with
  | .include => ctx
  | .addSubdirectory => ⟨candidate, true⟩

structure Follow where
  target : Path
  canonTarget : Path
  ctx : SourceContext

def Follow.key (f : Follow) : VisitKey := ⟨f.canonTarget, dedupCtx f.ctx⟩

def callEdge (w : Walker) (scope : Scope) (macroDepth : ℕ) (conditional : Bool) (kind : EdgeKind)
    (c : Command) : Edge × Option Follow :=
  let (rawArg, malformed, optional) := scope.arguments kind c
  let edge (status : Status) (reason : Option Reason) (resolvedPath : Option Path) : Edge :=
    ⟨kind, scope.file, scope.line c, rawArg, status, reason, resolvedPath, conditional⟩
  match classifyArg p.toLower kind rawArg malformed (decide (0 < macroDepth)) scope.file.dropLast
      scope.ctx w.workspaceRoot with
  | .error reason => (edge .unresolved (some reason) none, none)
  | .ok candidate =>
    if !w.withinWorkspace p candidate then
      (edge .unresolved (some .outsideWorkspace) (some candidate), none)
    else
      match findTarget p kind candidate with
      | .wrongType => (edge .unresolved (some .targetWrongType) (some candidate), none)
      | .unreadable => (edge .unresolved (some .targetUnreadable) (some candidate), none)
      | .absent => (edge (if optional then .optionalAbsent else .dangling) none (some candidate), none)
      | .file target =>
        let follow : Follow := ⟨target, p.canonicalize target, newContext kind scope.ctx candidate⟩
        if !w.withinWorkspace p follow.canonTarget then
          (edge .unresolved (some .outsideWorkspace) (some candidate), none)
        else if scope.ancestors.contains follow.canonTarget then
          (edge .unresolved (some .cyclic) (some candidate), none)
        else if w.visited.contains follow.key then (edge .resolved none (some candidate), none)
        else if scope.remaining = 0 ∨ w.opts.maxNodes ≤ w.visited.length then
          (edge .unresolved (some .depthLimit) (some candidate), none)
        else (edge .resolved none (some candidate), some follow)

def closeFile (w : Walker) (scope : Scope) (commandLimit : Bool) (frames : List Frame) : Walker :=
  match frames.getLast? with
  | none => w
  | some outermost =>
    if commandLimit then w
    else (w.retractEdges outermost.edgeStart).recordCoverage p scope.file .controlFlowInvalid
      ("unterminated control frame opened at line ".toList ++ decimal outermost.line)

abbrev Visit := Walker → Path → SourceContext → List Path → Walker

/-- The loop of `walkFileData` over the commands; the innermost frame comes first. -/
def commandLoop (visit : Visit) (scope : Scope) (commandLimit : Bool) :
    List Command → Walker → List Frame → (macroDepth : ℕ) → Walker
  | [], w, frames, _ => closeFile p w scope commandLimit frames
  | c :: rest, w, frames, macroDepth =>
    if w.edgeCapTruncated then w
    else
      match role c with
      | .opens kind =>
        commandLoop visit scope commandLimit rest w
          (⟨kind, w.edges.length, scope.line c⟩ :: frames) macroDepth
      | .closes kind =>
        match frames with
        | frame :: outer =>
          if frame.kind = kind then
            commandLoop visit scope commandLimit rest w outer macroDepth
          else w.recordCoverage p scope.file .controlFlowInvalid
            ("invalid ".toList ++ c.name ++ "() at line ".toList ++ decimal (scope.line c))
        | [] => w.recordCoverage p scope.file .controlFlowInvalid
            ("invalid ".toList ++ c.name ++ "() at line ".toList ++ decimal (scope.line c))
      | .beginsMacro => commandLoop visit scope commandLimit rest w frames (macroDepth + 1)
      | .endsMacro => commandLoop visit scope commandLimit rest w frames (macroDepth - 1)
      | .other => commandLoop visit scope commandLimit rest w frames macroDepth
      | .call kind =>
        let (edge, follow) := callEdge p w scope macroDepth (!frames.isEmpty) kind c
        match w.appendEdge p edge with
        | (w, false) => w
        | (w, true) =>
          match follow with
          | none => commandLoop visit scope commandLimit rest w frames macroDepth
          | some f =>
            commandLoop visit scope commandLimit rest
              (visit { w with visited := f.key :: w.visited } f.target f.ctx
                (scope.ancestors ++ [f.canonTarget]))
              frames macroDepth

def walkFileData (visit : Visit) (remaining : ℕ) (w : Walker) (file : Path) (data : Text)
    (ctx : SourceContext) (ancestors : List Path) : Walker :=
  let self := p.canonicalize file
  let w := { w with files := if w.files.contains self then w.files else w.files ++ [self] }
  let scan := scanTopLevelCommands data maxCommandInvocationsLimit
  let commandLimit := decide (scan.ended = .commandLimit)
  let w := if commandLimit then
      w.recordCoverage p self .commandCapExceeded
        ("stopped command discovery at ".toList ++ decimal maxCommandInvocationsLimit ++
          " invocations".toList)
    else w
  commandLoop p visit ⟨self, data, ctx, remaining, ancestors⟩ commandLimit scan.commands w [] 0

def walkFileWith (visit : Visit) (remaining : ℕ) (w : Walker) (file : Path) (ctx : SourceContext)
    (ancestors : List Path) : Walker :=
  let canonicalFile := p.canonicalize file
  match w.readPinnedRoot p canonicalFile with
  | .error err => w.recordCoverage p canonicalFile (readCoverageReason err) err.text
  | .ok data => walkFileData p visit remaining w canonicalFile data ctx ancestors

def walkFile : (remaining : ℕ) → Visit
  | 0 => walkFileWith p (fun w _ _ _ => w) 0
  | remaining + 1 => walkFileWith p (walkFile remaining) (remaining + 1)

def visitBelow : (remaining : ℕ) → Visit
  | 0 => fun w _ _ _ => w
  | remaining + 1 => walkFile p remaining

def walkRoot (w : Walker) (absStart : Path) : Walker × Option ReadError :=
  let canonStart := p.canonicalize absStart
  if !w.withinWorkspace p canonStart then
    (w.recordCoverage p canonStart .rootOutsideWorkspace
      ("root ".toList ++ canonStart.text ++ " resolves outside workspace root ".toList ++
        w.realWorkspaceRoot.text), none)
  else
    let ctx : SourceContext :=
      ⟨canonStart.dropLast, p.filesystemNameMatches canonStart "CMakeLists.txt".toList⟩
    let key : VisitKey := ⟨canonStart, dedupCtx ctx⟩
    if w.visited.contains key then (w, none)
    else if w.opts.maxNodes ≤ w.visited.length then
      ({ w with
        nodeCapTruncated := true
        rootsSkippedByNodeCap := w.rootsSkippedByNodeCap + 1 }, none)
    else
      let w := { w with visited := key :: w.visited }
      match w.readPinnedRoot p canonStart with
      | .error err =>
        if err.byteCapExceeded then
          (w.recordCoverage p canonStart .byteCapExceeded err.text, none)
        else (w, some err)
      | .ok data =>
        (walkFileData p (visitBelow p w.opts.maxDepth) w.opts.maxDepth w canonStart data ctx
          [canonStart], none)

inductive WalkError
  | startFileRequired | workspaceRootRequired | invalidOptions | openWorkspaceRoot
  | read (err : ReadError)
  | entryNamesRequired | rootRequired | entryFilters | treeRootOutsideWorkspace
  | enumerate (text : Text)

def newWalker (workspaceRoot : Text) (opts : Options) : Except WalkError Walker :=
  if isBlank workspaceRoot then .error .workspaceRootRequired
  else
    match opts.normalized with
    | none => .error .invalidOptions
    | some limits =>
      let absRoot := p.abs workspaceRoot
      let realRoot := p.canonicalize absRoot
      if !p.openRoot realRoot then .error .openWorkspaceRoot
      else .ok { opts := limits, workspaceRoot := absRoot, realWorkspaceRoot := realRoot }

structure Histogram where
  resolved : ℕ
  dangling : ℕ
  optionalAbsent : ℕ
  unresolved : ℕ
  byReason : Reason → ℕ

structure Result where
  root : Path
  workspaceRoot : Path
  edges : List Edge
  files : List Path
  histogram : Histogram
  nodeCapTruncated : Bool
  rootsSkippedByNodeCap : ℕ
  rootEnumerationCapped : Bool
  edgeCapTruncated : Bool
  rootsSkippedByEdgeCap : ℕ
  retainedEdgeBytes : ℤ
  coverageCapTruncated : Bool
  droppedCoverageHoles : ℕ
  retainedCoverageBytes : ℤ
  unscannedFiles : List UnscannedFile
  takenBack : List Edge

def textBefore : Text → Text → Bool
  | [], _ => true
  | _ :: _, [] => false
  | a :: as, b :: bs => decide (a < b) || (decide (a = b) && textBefore as bs)

def sortPaths (paths : List Path) : List Path :=
  paths.insertionSort (fun a b => textBefore a.text b.text = true)

def Histogram.of (edges : List Edge) : Histogram where
  resolved := edges.countP (fun e => decide (e.status = .resolved))
  dangling := edges.countP (fun e => decide (e.status = .dangling))
  optionalAbsent := edges.countP (fun e => decide (e.status = .optionalAbsent))
  unresolved := edges.countP (fun e => decide (e.status = .unresolved))
  byReason := fun reason =>
    edges.countP (fun e => decide (e.status = .unresolved ∧ e.reason = some reason))

def Walker.result (w : Walker) (root : Path) : Result where
  root := root
  workspaceRoot := w.workspaceRoot
  edges := w.edges
  files := sortPaths w.files
  histogram := .of w.edges
  nodeCapTruncated := w.nodeCapTruncated
  rootsSkippedByNodeCap := w.rootsSkippedByNodeCap
  rootEnumerationCapped := w.rootEnumerationCapped
  edgeCapTruncated := w.edgeCapTruncated
  rootsSkippedByEdgeCap := w.rootsSkippedByEdgeCap
  retainedEdgeBytes := w.retainedEdgeBytes
  coverageCapTruncated := w.coverageCapTruncated
  droppedCoverageHoles := w.droppedCoverageHoles
  retainedCoverageBytes := w.retainedCoverageBytes
  unscannedFiles := w.unscanned
  takenBack := w.takenBack

/-- `Walk` in a context that is not canceled. -/
def walk (startFile workspaceRoot : Text) (opts : Options) : Except WalkError Result :=
  if isBlank startFile then .error .startFileRequired
  else
    match newWalker p workspaceRoot opts with
    | .error err => .error err
    | .ok w =>
      match walkRoot p w (p.abs startFile) with
      | (_, some err) => .error (.read err)
      | (w, none) => .ok (w.result (p.abs startFile))

structure EntryFilters where
  exact : List Text
  suffixes : List Text

def compileEntryFilters (patterns : List Text) : Option EntryFilters :=
  if maxEntryFilters < patterns.length ∨
      maxEntryFilterBytes < (patterns.map byteLength).sum then none
  else
    let suffix (pattern : Text) : Bool := "*.".toList.isPrefixOf (p.toLower pattern)
    some ⟨patterns.filter (fun pattern => !suffix pattern),
      (patterns.filter suffix).map (fun pattern => (p.toLower pattern).drop 1)⟩

def EntryFilters.matchesPath (filters : EntryFilters) (path : Path) : Bool :=
  filters.exact.any (fun exact => p.filesystemNameMatches path exact) ||
    filters.suffixes.any (fun suffix => suffix.isSuffixOf (p.toLower (path.getLastD [])))

/-- The callbacks of the enumeration: the walker with their holes, and the candidate roots as they
were met. -/
def enumerate (filters : EntryFilters) (absRoot : Path) :
    List WalkEntry → Walker → (starts : List Path) → (retainedBytes visitedEntries : ℕ) →
      Except WalkError (Walker × List Path)
  | [], w, starts, _, _ => .ok (w, starts)
  | entry :: rest, w, starts, bytes, visited =>
    match entry.error, decide (entry.path = absRoot) with
    | some text, true => .error (.enumerate text)
    | failure, _ =>
      if w.opts.maxVisitedEntries < visited + 1 then
        .ok ({ w with rootEnumerationCapped := true }.recordCoverage p entry.path.dropLast
          .rootEnumerationCapped
          ("stopped enumerating entries at MaxVisitedEntries=".toList ++
            decimal w.opts.maxVisitedEntries), starts)
      else
        match failure with
        | some text =>
          enumerate filters absRoot rest (w.recordCoverage p entry.path .enumerateFailed text)
            starts bytes (visited + 1)
        | none =>
          if entry.isDirectorySymlink then
            enumerate filters absRoot rest
              (w.recordCoverage p entry.path .symlinkDirectorySkipped
                "directory symlink was not traversed".toList) starts bytes (visited + 1)
          else if entry.isDir || !filters.matchesPath p entry.path then
            enumerate filters absRoot rest w starts bytes (visited + 1)
          else if w.opts.maxRoots ≤ starts.length then
            .ok ({ w with rootEnumerationCapped := true }.recordCoverage p entry.path.dropLast
              .rootEnumerationCapped
              ("stopped enumerating candidate roots at MaxRoots=".toList ++
                decimal w.opts.maxRoots), starts)
          else
            let pathBytes := byteLength entry.path.text + 1
            if maxRetainedRootPathBytesLimit < bytes + pathBytes then
              .ok ({ w with rootEnumerationCapped := true }.recordCoverage p
                entry.path.dropLast .rootEnumerationCapped
                ("stopped enumerating candidate roots at retained-path byte limit=".toList ++
                  decimal maxRetainedRootPathBytesLimit), starts)
            else
              enumerate filters absRoot rest w (starts ++ [entry.path]) (bytes + pathBytes)
                (visited + 1)

def walkRoots : Walker → List Path → Walker
  | w, [] => w
  | w, start :: rest =>
    if w.edgeCapTruncated then
      { w with rootsSkippedByEdgeCap := w.rootsSkippedByEdgeCap + (rest.length + 1) }
    else
      match walkRoot p w start with
      | (w, none) => walkRoots w rest
      | (w, some err) => walkRoots (w.recordCoverage p start (readCoverageReason err) err.text) rest

/-- The candidate roots of a tree in the order in which they are walked, and the walker that has the
holes. -/
def treeRoots (root workspaceRoot : Text) (entryNames : List Text) (opts : Options) :
    Except WalkError (Walker × List Path) :=
  if entryNames = [] then .error .entryNamesRequired
  else if isBlank root then .error .rootRequired
  else
    match compileEntryFilters p entryNames with
    | none => .error .entryFilters
    | some filters =>
      match newWalker p (if isBlank workspaceRoot then root else workspaceRoot) opts with
      | .error err => .error err
      | .ok w =>
        if !w.withinWorkspace p (p.abs root) then .error .treeRootOutsideWorkspace
        else
          match enumerate p filters (p.abs root) (p.walkDir (p.abs root)) w [] 0 0 with
          | .error err => .error err
          | .ok (w, starts) => .ok (w, sortPaths starts)

/-- `WalkTree` in a context that is not canceled. -/
def walkTree (root workspaceRoot : Text) (entryNames : List Text) (opts : Options) :
    Except WalkError Result :=
  match treeRoots p root workspaceRoot entryNames opts with
  | .error err => .error err
  | .ok (w, starts) => .ok ((walkRoots p w starts).result (p.abs root))

end McpLocalHub.CMakeGraph.Traversal
