/- Module: CMakeGraph/BlockTracking
   source: internal/cmakegraph/cmakegraph.go
   digest: What the walk knows of the blocks of a file, and the paths inside of macro() and
   function(). -/

import McpLocalHub.CMakeGraph.HonestCoverage

set_option autoImplicit false

namespace McpLocalHub.CMakeGraph.BlockTracking

open Lexer Arguments Traversal List

/-- Properly nested commands, with the calls among them in order, each with whether it lies in a
block. -/
inductive Nested : Bool → List Command → List (Command × Bool) → Prop
  | nil {inside : Bool} : Nested inside [] []
  | call {inside : Bool} {c : Command} {kind : EdgeKind} {rest : List Command}
      {calls : List (Command × Bool)} (is : role c = .call kind) (more : Nested inside rest calls) :
      Nested inside (c :: rest) ((c, inside) :: calls)
  | other {inside : Bool} {c : Command} {rest : List Command} {calls : List (Command × Bool)}
      (is : role c = .beginsMacro ∨ role c = .endsMacro ∨ role c = .other)
      (more : Nested inside rest calls) : Nested inside (c :: rest) calls
  | block {inside : Bool} {opener closer : Command} {kind : FrameKind} {body rest : List Command}
      {inner outer : List (Command × Bool)} (opens : role opener = .opens kind)
      (closes : role closer = .closes kind) (within : Nested true body inner)
      (more : Nested inside rest outer) :
      Nested inside (opener :: (body ++ closer :: rest)) (inner ++ outer)

def callSites (before : List Command) : List Command → List (List Command × Command)
  | [] => []
  | c :: rest =>
    match role c with
    | .call _ => (before, c) :: callSites (before ++ [c]) rest
    | _ => callSites (before ++ [c]) rest

def bodyStep (opener terminator : Text) (depth : ℕ) (c : Command) : ℕ :=
  if c.name = opener then depth + 1 else if c.name = terminator then depth - 1 else depth

/-- A function() or a macro() is open behind the commands, each by the count of its own kind. -/
def InBody (before : List Command) : Prop :=
  0 < before.foldl (bodyStep "function".toList "endfunction".toList) 0 ∨
    0 < before.foldl (bodyStep "macro".toList "endmacro".toList) 0
  deriving Decidable

/-- The terminators that the open definitions wait for, the innermost first; `none` at one of the
other kind. -/
def definitionStep (open_ : List Text) (c : Command) : Option (List Text) :=
  if c.name = "macro".toList then some ("endmacro".toList :: open_)
  else if c.name = "function".toList then some ("endfunction".toList :: open_)
  else if c.name = "endmacro".toList ∨ c.name = "endfunction".toList then
    match open_ with
    | [] => some []
    | innermost :: outer => if c.name = innermost then some outer else none
  else some open_

def Matched (commands : List Command) : Prop := (commands.foldlM definitionStep []).isSome = true

/-- The path is that of an absolute text in which nothing stands for the directory of the file. -/
def Absolute (file root : Path) (e : Edge) : Prop :=
  contains "$\x7bCMAKE_CURRENT_LIST_DIR\x7d".toList e.rawArg = false ∧
    ∃ text, substituteKnownVars (Path.text file.dropLast) root.text e.rawArg 0 = some text ∧
      isAbs text = true ∧ e.resolvedPath = some (cleanFrom [] text)

def ownEdges (w after : Walker) (file : Path) : List Edge :=
  (after.edges.drop w.edges.length).filter (fun e => e.fromFile = file)

def openAfter : List FrameKind → List Command → Option (List FrameKind)
  | frames, [] => some frames
  | frames, c :: rest =>
    match role c with
    | .opens kind => openAfter (kind :: frames) rest
    | .closes kind =>
      match frames with
      | frame :: outer => if frame = kind then openAfter outer rest else none
      | [] => none
    | _ => openAfter frames rest

def depthStep (depth : ℕ) (c : Command) : ℕ :=
  match role c with
  | .beginsMacro => depth + 1
  | .endsMacro => depth - 1
  | _ => depth

def Closes : List FrameKind → List Command → List (Command × Bool) → Prop
  | [], commands, calls => Nested false commands calls
  | kind :: outer, commands, calls => ∃ body closer rest inner more,
    commands = body ++ closer :: rest ∧ calls = inner ++ more ∧ role closer = .closes kind ∧
      Nested true body inner ∧ Closes outer rest more

def mark (site : List Command × Command) : Command × Bool :=
  (site.2, !((openAfter [] site.1).getD []).isEmpty)

variable {p : Platform} {scope : Scope} {start w after : Walker} {c : Command}
  {done rest commands : List Command} {frames : List FrameKind} {calls : List (Command × Bool)}
  {sites : List (List Command × Command)}

variable {kind : EdgeKind} {candidate : Path} {more : List Edge} {e : Edge} {limit : Bool}
  {visit : Visit}

theorem Closes.call (is : role c = .call kind) (closes : Closes frames rest calls) :
    Closes frames (c :: rest) ((c, !frames.isEmpty) :: calls) := by
  cases frames with
  | nil => exact .call is closes
  | cons kind outer =>
    obtain ⟨body, closer, behind, inner, more, rfl, rfl, closing, within, rest⟩ := closes
    exact ⟨c :: body, closer, behind, _ :: inner, more, rfl, rfl, closing, .call is within, rest⟩

theorem Closes.other (is : role c = .beginsMacro ∨ role c = .endsMacro ∨ role c = .other)
    (closes : Closes frames rest calls) : Closes frames (c :: rest) calls := by
  cases frames with
  | nil => exact .other is closes
  | cons kind outer =>
    obtain ⟨body, closer, behind, inner, more, rfl, rfl, closing, within, rest⟩ := closes
    exact ⟨c :: body, closer, behind, inner, more, rfl, rfl, closing, .other is within, rest⟩

theorem Closes.opens {kind : FrameKind} (is : role c = .opens kind)
    (closes : Closes (kind :: frames) rest calls) : Closes frames (c :: rest) calls := by
  obtain ⟨body, closer, behind, inner, more, rfl, rfl, closing, within, rest⟩ := closes
  cases frames with
  | nil => exact .block is closing within rest
  | cons kind outer =>
    obtain ⟨body', closer', behind, inner', more, rfl, rfl, closing', within', rest⟩ := rest
    exact ⟨c :: (body ++ closer :: body'), closer', behind, inner ++ inner', more, by simp, by simp,
      closing', .block is closing within within', rest⟩

theorem openAfter_append (frames : List FrameKind) :
    openAfter frames (done ++ rest) = (openAfter frames done).bind (openAfter · rest) := by
  induction done generalizing frames with
  | nil => rfl
  | cons c done ih =>
    simp only [cons_append, openAfter]
    split <;> try exact ih _
    split
    · split
      · exact ih _
      · rfl
    · rfl

theorem closes_of_open (opened : openAfter [] done = some frames)
    (closed : openAfter frames rest = some []) :
    Closes frames rest ((callSites done rest).map mark) := by
  induction rest generalizing done frames with
  | nil =>
    cases closed
    exact .nil
  | cons c rest ih =>
    have opened' : openAfter [] (done ++ [c]) = openAfter frames [c] := by
      rw [openAfter_append, opened]
      rfl
    cases is : role c <;> simp only [openAfter, callSites, is] at closed opened' ⊢
    case opens kind => exact .opens is (ih opened' closed)
    case closes kind =>
      split at closed
      · split at closed
        · rename_i frame outer same
          have passed := opened'.trans (if_pos same)
          exact ⟨[], c, rest, [], _, rfl, rfl, same ▸ is, .nil, ih passed closed⟩
        · cases closed
      · cases closed
    case call kind =>
      have inside : mark (done, c) = (c, !frames.isEmpty) := by simp [mark, opened]
      rw [map_cons, inside]
      exact .call is (ih opened' closed)
    all_goals exact .other (by simp [is]) (ih opened' closed)

theorem definitionStep_counts {open_ next : List Text} (step : definitionStep open_ c = some next) :
    depthStep open_.length c = next.length ∧
      bodyStep "function".toList "endfunction".toList (open_.count "endfunction".toList) c =
        next.count "endfunction".toList ∧
      bodyStep "macro".toList "endmacro".toList (open_.count "endmacro".toList) c =
        next.count "endmacro".toList := by
  unfold definitionStep at step
  split at step
  · rename_i name
    cases step
    unfold depthStep bodyStep role
    rw [name]
    exact ⟨rfl, rfl, count_cons_self.symm⟩
  split at step
  · rename_i name
    cases step
    unfold depthStep bodyStep role
    rw [name]
    exact ⟨rfl, count_cons_self.symm, rfl⟩
  split at step
  · rename_i ends
    unfold depthStep bodyStep role
    split at step
    · cases step
      rcases ends with name | name <;> rw [name] <;> exact ⟨rfl, rfl, rfl⟩
    · split at step
      · rename_i innermost outer same
        cases step
        subst same
        rcases ends with name | name <;> rw [name, count_cons, count_cons] <;> exact ⟨rfl, rfl, rfl⟩
      · cases step
  · rename_i macros functions ends
    cases step
    rw [not_or] at ends
    refine ⟨?_, ?_, ?_⟩
    · have plain : role c ≠ .beginsMacro ∧ role c ≠ .endsMacro := by
        unfold role
        rw [if_neg (not_or.mpr ⟨macros, functions⟩), if_neg (not_or.mpr ends)]
        iterate 8
          refine iteInduction (motive := fun r => r ≠ Role.beginsMacro ∧ r ≠ .endsMacro)
            (fun _ => ⟨nofun, nofun⟩) (fun _ => ?_)
        exact ⟨nofun, nofun⟩
      unfold depthStep
      split
      · exact absurd ‹_› plain.1
      · exact absurd ‹_› plain.2
      · rfl
    · rw [bodyStep, if_neg functions, if_neg ends.2]
    · rw [bodyStep, if_neg macros, if_neg ends.1]

theorem depth_pos_of_inBody (matched : Matched done) (inside : InBody done) :
    0 < done.foldl depthStep 0 := by
  have counts : ∀ (commands : List Command) (open_ next : List Text),
      commands.foldlM definitionStep open_ = some next →
      commands.foldl depthStep open_.length = next.length ∧
        commands.foldl (bodyStep "function".toList "endfunction".toList)
          (open_.count "endfunction".toList) = next.count "endfunction".toList ∧
        commands.foldl (bodyStep "macro".toList "endmacro".toList)
          (open_.count "endmacro".toList) = next.count "endmacro".toList := by
    intro commands
    induction commands with
    | nil =>
      intro open_ next same
      cases same
      exact ⟨rfl, rfl, rfl⟩
    | cons c commands ih =>
      intro open_ next run
      obtain ⟨middle, step, run⟩ := Option.bind_eq_some_iff.mp run
      obtain ⟨depth, functions, macros⟩ := definitionStep_counts step
      simp only [foldl_cons, depth, functions, macros]
      exact ih middle next run
  obtain ⟨next, run⟩ := Option.isSome_iff_exists.mp matched
  obtain ⟨depth, functions, macros⟩ := counts done [] next run
  simp only [count_nil, length_nil] at depth functions macros
  rw [InBody, functions, macros] at inside
  rw [depth]
  exact inside.elim (fun some => some.trans_le count_le_length)
    (fun some => some.trans_le count_le_length)

theorem of_checked {condition : Prop} [Decidable condition] {reason : Reason}
    {rest : Except Reason Path} (ok : (if condition then .error reason else rest) = .ok candidate) :
    ¬condition ∧ rest = .ok candidate := by
  by_cases holds : condition
  · rw [if_pos holds] at ok
    cases ok
  · rw [if_neg holds] at ok
    exact ⟨holds, ok⟩

theorem classifyArg_deferred {toLower : Text → Text} {rawArg : Text}
    {malformed : Bool} {dir root : Path} {ctx : SourceContext}
    (ok : classifyArg toLower kind rawArg malformed true dir ctx root = .ok candidate) :
    contains "$\x7bCMAKE_CURRENT_LIST_DIR\x7d".toList rawArg = false ∧
      ∃ text, substituteKnownVars dir.text root.text rawArg 0 = some text ∧ isAbs text = true ∧
        candidate = cleanFrom [] text := by
  unfold classifyArg at ok
  obtain ⟨-, ok⟩ := of_checked ok
  obtain ⟨-, ok⟩ := of_checked ok
  obtain ⟨-, ok⟩ := of_checked ok
  obtain ⟨literal, ok⟩ := of_checked ok
  obtain ⟨-, ok⟩ := of_checked ok
  cases substituted : substituteKnownVars dir.text root.text rawArg 0 with
  | none =>
    rw [substituted] at ok
    cases ok
  | some text =>
    rw [substituted] at ok
    obtain ⟨-, ok⟩ := of_checked ok
    obtain ⟨relative, ok⟩ := of_checked ok
    have absolute : isAbs text = true := by simpa using relative
    rw [if_pos absolute] at ok
    exact ⟨eq_false_of_ne_true literal, text, rfl, absolute, (Except.ok.inj ok).symm⟩

structure Marked (p : Platform) (root : Path) (scope : Scope) (depth : ℕ) (conditional : Bool)
    (answer : Edge × Option Follow) : Prop where
  conditional : answer.1.conditional = conditional
  absolute : 0 < depth → answer.1.status ≠ .unresolved → Absolute scope.file root answer.1
  enters : ∀ f, answer.2 = some f → f.canonTarget ∉ scope.ancestors

theorem callEdge_marked (w : Walker) (scope : Scope) (depth : ℕ) (conditional : Bool)
    (kind : EdgeKind) (c : Command) :
    Marked p w.workspaceRoot scope depth conditional
      (callEdge p w scope depth conditional kind c) := by
  have unresolved {e : Edge} (same : e.conditional = conditional) (status : e.status = .unresolved) :
      Marked p w.workspaceRoot scope depth conditional (e, none) :=
    ⟨same, fun _ other => absurd status other, by rintro f ⟨⟩⟩
  unfold callEdge
  dsimp only
  split
  · exact unresolved rfl rfl
  rename_i candidate ok
  have absolute {e : Edge} (raw : e.rawArg = (scope.arguments kind c).1)
      (path : e.resolvedPath = some candidate) (inside : 0 < depth) :
      Absolute scope.file w.workspaceRoot e := by
    rw [decide_eq_true inside] at ok
    obtain ⟨literal, text, substituted, isAbs, rfl⟩ := classifyArg_deferred ok
    rw [← raw] at literal substituted
    exact ⟨literal, text, substituted, isAbs, path⟩
  split
  · exact unresolved rfl rfl
  split
  · exact unresolved rfl rfl
  · exact unresolved rfl rfl
  · exact ⟨rfl, fun inside _ => absolute rfl rfl inside, by rintro f ⟨⟩⟩
  split
  · exact unresolved rfl rfl
  split
  · exact unresolved rfl rfl
  rename_i cyclic
  split
  · exact ⟨rfl, fun inside _ => absolute rfl rfl inside, by rintro f ⟨⟩⟩
  split
  · exact unresolved rfl rfl
  · refine ⟨rfl, fun inside _ => absolute rfl rfl inside, ?_⟩
    rintro f ⟨⟩
    exact fun above => cyclic (contains_iff_mem.mpr above)

structure Adds (w after : Walker) (added : List Edge) : Prop where
  root : after.workspaceRoot = w.workspaceRoot
  edges : after.edges = w.edges ++ added
  holes : w.unscanned <+: after.unscanned

theorem Adds.trans {last : Walker} {added : List Edge} (first : Adds w after added)
    (second : Adds after last more) : Adds w last (added ++ more) where
  root := second.root.trans first.root
  edges := by rw [second.edges, first.edges, append_assoc]
  holes := first.holes.trans second.holes

def VisitAdds (p : Platform) (visit : Visit) : Prop :=
  ∀ w file ctx above, p.canonicalize file ∉ above → ∃ added,
    Adds w (visit w file ctx (above ++ [p.canonicalize file])) added ∧
      ∀ e ∈ added, e.fromFile ∉ above

structure EdgeAt (scope : Scope) (root : Path) (site : List Command × Command) (e : Edge) : Prop where
  line : e.line = scope.line site.2
  conditional : e.conditional = (mark site).2
  absolute : 0 < site.1.foldl depthStep 0 → e.status ≠ .unresolved → Absolute scope.file root e

def Kept (scope : Scope) (start w : Walker) (sites : List (List Command × Command)) : Prop :=
  ∃ added, Adds start w added ∧ (∀ e ∈ added, e.fromFile = scope.file ∨ e.fromFile ∉ scope.ancestors) ∧
    Forall₂ (EdgeAt scope start.workspaceRoot) sites (added.filter (fun e => e.fromFile = scope.file))

theorem recordCoverage_adds (w : Walker) (path : Path) (reason : CoverageReason) (detail : Text) :
    Adds w (w.recordCoverage p path reason detail) [] := by
  refine ⟨?_, by rw [recordCoverage_edges, append_nil], ?_⟩
  all_goals
    unfold Walker.recordCoverage
    dsimp only
    split
  · rfl
  · rfl
  · exact prefix_rfl
  · exact prefix_append _ _

theorem Kept.adds (kept : Kept scope start w sites) (adds : Adds w after more)
    (own : scope.file ∈ scope.ancestors) (others : ∀ e ∈ more, e.fromFile ∉ scope.ancestors) :
    Kept scope start after sites := by
  obtain ⟨added, before, origin, edges⟩ := kept
  refine ⟨added ++ more, before.trans adds, ?_, ?_⟩
  · intro e among
    exact (mem_append.mp among).elim (origin e) (fun new => .inr (others e new))
  · have none : more.filter (fun e => e.fromFile = scope.file) = [] := by
      refine filter_eq_nil_iff.mpr (fun e new same => others e new ?_)
      rw [of_decide_eq_true same]
      exact own
    rw [filter_append, none, append_nil]
    exact edges

theorem Kept.call {site : List Command × Command} (kept : Kept scope start w sites)
    (adds : Adds w after [e]) (own : e.fromFile = scope.file)
    (at_ : EdgeAt scope start.workspaceRoot site e) : Kept scope start after (sites ++ [site]) := by
  obtain ⟨added, before, origin, edges⟩ := kept
  refine ⟨added ++ [e], before.trans adds, ?_, ?_⟩
  · intro d among
    rcases mem_append.mp among with old | new
    · exact origin d old
    · exact .inl (mem_singleton.mp new ▸ own)
  · have mine : [e].filter (fun e => e.fromFile = scope.file) = [e] := by simp [own]
    rw [filter_append, mine]
    exact rel_append edges (.cons at_ .nil)

theorem Kept.retract {count : ℕ} (kept : Kept scope start w sites)
    (since : start.edges.length ≤ count) :
    ∃ fewer, fewer <+: sites ∧ Kept scope start (w.retractEdges count) fewer := by
  obtain ⟨added, before, origin, edges⟩ := kept
  unfold Walker.retractEdges
  split
  · exact ⟨sites, prefix_rfl, added, before, origin, edges⟩
  · have first := take_prefix (count - start.edges.length) added
    have part := first.filter (fun e => e.fromFile = scope.file)
    have shorter := forall₂_take
      ((added.take (count - start.edges.length)).filter (fun e => e.fromFile = scope.file)).length edges
    rw [← prefix_iff_eq_take.mp part] at shorter
    refine ⟨_, take_prefix _ sites, added.take (count - start.edges.length),
      ⟨before.root, ?_, before.holes⟩, fun e early => origin e (mem_of_mem_take early), shorter⟩
    rw [before.edges, take_append, take_of_length_le since]

/-- The walk met no cap and added no hole for the structure of the file. -/
structure Clean (w after : Walker) (file : Path) : Prop where
  uncut : after.Uncut
  calm : ∀ hole ∈ after.unscanned.drop w.unscanned.length,
    hole.path = file → hole.reason ≠ .controlFlowInvalid

/-- The edges of the first calls are kept, and at a clean end of a whole scan those of all calls. -/
def Ends (scope : Scope) (limit : Bool) (commands : List Command) (start after : Walker) : Prop :=
  ∃ sites, sites <+: callSites [] commands ∧ Kept scope start after sites ∧
    (limit = false → Clean start after scope.file →
      sites = callSites [] commands ∧ openAfter [] commands = some [])

theorem Kept.hole {detail : Text} (kept : Kept scope start w sites)
    (part : sites <+: callSites [] commands) (own : scope.file ∈ scope.ancestors)
    (self : p.canonicalize scope.file = scope.file) :
    Ends scope limit commands start
      (w.recordCoverage p scope.file .controlFlowInvalid detail) := by
  refine ⟨sites, part, kept.adds (recordCoverage_adds w _ _ _) own (by simp), fun _ clean => ?_⟩
  obtain ⟨uncut, calm⟩ := clean
  replace uncut := uncut.coverage
  obtain ⟨added, before, -⟩ := kept
  unfold Walker.recordCoverage at uncut calm
  dsimp only at uncut calm
  split at uncut
  · cases uncut
  · rename_i room
    rw [if_neg room] at calm
    refine (calm ⟨_, .controlFlowInvalid, detail⟩ ?_ self rfl).elim
    rw [drop_append_of_le_length before.holes.length_le]
    exact mem_append_right _ (mem_singleton.mpr rfl)

theorem appendEdge_adds {kept : Bool} (appended : w.appendEdge p e = (after, kept)) :
    Adds w after (if kept then [e] else []) ∧ (kept = false → after.edgeCapTruncated = true) := by
  unfold Walker.appendEdge at appended
  dsimp only at appended
  split at appended
  · cases appended
    refine ⟨?_, fun _ => rfl⟩
    split
    · exact ⟨rfl, (append_nil _).symm, prefix_rfl⟩
    · have recorded := recordCoverage_adds (p := p) w e.fromFile .edgeCapExceeded
      exact { recorded _ with }
  · cases appended
    exact ⟨⟨rfl, rfl, prefix_rfl⟩, nofun⟩

theorem commandLoop_ends (visits : VisitAdds p visit) (own : scope.file ∈ scope.ancestors)
    (self : p.canonicalize scope.file = scope.file) {frames : List Frame}
    (whole : commands = done ++ rest) (all : callSites [] commands = sites ++ callSites done rest)
    (opened : openAfter [] done = some (frames.map Frame.kind))
    (since : ∀ frame ∈ frames, start.edges.length ≤ frame.edgeStart)
    (kept : Kept scope start w sites) :
    Ends scope limit commands start
      (commandLoop p visit scope limit rest w frames (done.foldl depthStep 0)) := by
  have part : sites <+: callSites [] commands := ⟨_, all.symm⟩
  induction rest generalizing done w frames sites with
  | nil =>
    rw [append_nil] at whole
    subst whole
    rw [callSites, append_nil] at all
    rw [commandLoop, closeFile]
    split
    · rename_i none
      obtain rfl := getLast?_eq_none_iff.mp none
      exact ⟨sites, part, kept, fun _ _ => ⟨all.symm, opened⟩⟩
    · rename_i outermost last
      split
      · rename_i cut
        exact ⟨sites, part, kept, fun fine _ => absurd (cut.symm.trans fine) (by decide)⟩
      · obtain ⟨fewer, first, kept⟩ := kept.retract (since outermost (mem_of_getLast? last))
        exact kept.hole (first.trans part) own self
  | cons c rest ih =>
    have capped {after : Walker} (kept : Kept scope start after sites)
        (cut : after.edgeCapTruncated = true) : Ends scope limit commands start after :=
      ⟨sites, part, kept, fun _ clean => absurd (cut.symm.trans clean.uncut.edge) (by decide)⟩
    have next : commands = (done ++ [c]) ++ rest := by rw [whole, append_assoc]; rfl
    have opened' : openAfter [] (done ++ [c]) = openAfter (frames.map Frame.kind) [c] := by
      rw [openAfter_append, opened]
      rfl
    have depth : depthStep (done.foldl depthStep 0) c = (done ++ [c]).foldl depthStep 0 := by
      rw [foldl_append]
      rfl
    rw [commandLoop]
    split
    · exact capped kept ‹_›
    cases is : role c <;> simp only [openAfter, callSites, depthStep, is] at all opened' depth ⊢
    case opens kind =>
      rw [depth]
      refine ih next all opened' ?_ kept part
      obtain ⟨added, before, -⟩ := kept
      rintro frame (_ | ⟨_, earlier⟩)
      · simp [before.edges]
      · exact since frame earlier
    case closes kind =>
      cases frames with
      | nil => exact kept.hole part own self
      | cons frame outer =>
        dsimp only
        split
        · rename_i same
          rw [depth]
          exact ih next all (opened'.trans (if_pos same))
            (fun inner earlier => since inner (mem_cons_of_mem _ earlier)) kept part
        · exact kept.hole part own self
    case call kind =>
      have edgeOf := callEdge_edgeOf (p := p) w scope (done.foldl depthStep 0) (!frames.isEmpty) kind c
      have marked := callEdge_marked (p := p) w scope (done.foldl depthStep 0) (!frames.isEmpty) kind c
      revert edgeOf marked
      generalize callEdge p w scope (done.foldl depthStep 0) (!frames.isEmpty) kind c = answer
      obtain ⟨e, follow⟩ := answer
      intro edgeOf marked
      have root : w.workspaceRoot = start.workspaceRoot := kept.choose_spec.1.root
      have at_ : EdgeAt scope start.workspaceRoot (done, c) e :=
        ⟨edgeOf.origin.2, marked.conditional.trans (by simp [mark, opened]), root ▸ marked.absolute⟩
      rw [append_cons] at all
      dsimp only
      split
      · rename_i after refused
        obtain ⟨adds, cut⟩ := appendEdge_adds refused
        exact capped (kept.adds adds own (by simp)) (cut rfl)
      · rename_i after appended
        have adds := (appendEdge_adds appended).1
        rw [depth]
        split
        · exact ih next all opened' since (kept.call adds edgeOf.origin.1 at_) ⟨_, all.symm⟩
        · rename_i f
          have same := (edgeOf.follows f rfl).2.2
          have fresh := marked.enters f rfl
          rw [same] at fresh ⊢
          obtain ⟨more, below, others⟩ := visits { after with visited := f.key :: after.visited }
            f.target f.ctx scope.ancestors fresh
          have entered : Kept scope start { after with visited := f.key :: after.visited }
            (sites ++ [(done, c)]) := kept.call { adds with } edgeOf.origin.1 at_
          exact ih next all opened' since (entered.adds below own others) ⟨_, all.symm⟩
    all_goals
      rw [depth]
      exact ih next all opened' since kept part

theorem walkFileData_ends (visits : VisitAdds p visit) (remaining : ℕ) (w : Walker)
    (file : Path) (data : Text) (ctx : SourceContext) (above : List Path) :
    Ends ⟨p.canonicalize file, data, ctx, remaining, above ++ [p.canonicalize file]⟩
      (decide ((scanOf data).ended = .commandLimit)) (scanOf data).commands w
      (walkFileData p visit remaining w file data ctx (above ++ [p.canonicalize file])) := by
  unfold walkFileData
  have begun : openAfter [] [] = some (([] : List Frame).map Frame.kind) := rfl
  refine commandLoop_ends visits (mem_append_right _ (.head _)) (canonicalize_idem p file) rfl
    (nil_append _).symm begun (by simp) ⟨[], ?_, by simp, .nil⟩
  split
  · exact { recordCoverage_adds (p := p) _ _ _ _ with }
  · exact ⟨rfl, (append_nil _).symm, prefix_rfl⟩

theorem walkFile_adds (remaining : ℕ) : VisitAdds p (walkFile p remaining) := by
  have one {visit : Visit} (visits : VisitAdds p visit) (remaining : ℕ) :
      VisitAdds p (walkFileWith p visit remaining) := by
    intro w file ctx above fresh
    rw [walkFileWith]
    split
    · exact ⟨[], recordCoverage_adds w _ _ _, by simp⟩
    · rename_i data content
      obtain ⟨sites, -, ⟨added, adds, origin, -⟩, -⟩ :=
        walkFileData_ends visits remaining w (p.canonicalize file) data ctx above
      rw [canonicalize_idem] at adds origin
      refine ⟨added, adds, fun e among => ?_⟩
      rcases origin e among with same | other
      · exact same ▸ fresh
      · exact fun listed => other (mem_append_left _ listed)
  induction remaining with
  | zero => exact one (fun w _ _ _ _ => ⟨[], ⟨rfl, by simp, prefix_rfl⟩, by simp⟩) 0
  | succ remaining ih => exact one ih (remaining + 1)

theorem visitBelow_adds (remaining : ℕ) : VisitAdds p (visitBelow p remaining) := by
  cases remaining with
  | zero => exact fun w _ _ _ _ => ⟨[], ⟨rfl, (append_nil _).symm, prefix_rfl⟩, by simp⟩
  | succ remaining => exact walkFile_adds remaining

def emptyWalker : Walker :=
  { opts := maxLimits, workspaceRoot := ["w".toList], realWorkspaceRoot := ["w".toList] }

def smallTree : Platform := diskOf
  [(["w".toList, "CMakeLists.txt".toList], "include(b.cmake)\n".toList),
    (["w".toList, "b.cmake".toList], "message(hello)\n".toList)]

def walked (data : Text) : Walker :=
  walkFileData smallTree (visitBelow smallTree 1) 1 emptyWalker ["w".toList] data ⟨["w".toList], true⟩
    ([] ++ [["w".toList]])

def blockFile : Text :=
  "function(f)\ninclude(/w/b.cmake)\nendfunction()\nif(X)\ninclude(b.cmake)\nendif()\n".toList

def crossedFile : Text := "function(f)\nendmacro()\ninclude(rel.cmake)\nendfunction()\n".toList

end McpLocalHub.CMakeGraph.BlockTracking
