/- Module: CMakeGraph/Coverage
   source: internal/cmakegraph/cmakegraph.go
   digest: What coverage of a file means, and what the walk of one file adds to the walker. -/

import McpLocalHub.CMakeGraph.Traversal

set_option autoImplicit false

namespace McpLocalHub.CMakeGraph.Traversal

open Lexer Arguments List

variable {p : Platform}

theorem canonicalize_idem (p : Platform) (path : Path) :
    p.canonicalize (p.canonicalize path) = p.canonicalize path := by
  cases found : p.evalSymlinks path with
  | none =>
    have same : p.canonicalize path = path := by rw [Platform.canonicalize, found]; rfl
    rw [same, same]
  | some real =>
    have same : p.canonicalize path = real := by rw [Platform.canonicalize, found]; rfl
    rw [same, Platform.canonicalize, p.evalSymlinks_stable path real found]
    rfl

def Edge.target (p : Platform) (e : Edge) : Option Path :=
  e.resolvedPath.map (fun candidate => p.canonicalize (targetPath e.kind candidate))

def scanOf (data : Text) : Scan := scanTopLevelCommands data maxCommandInvocationsLimit

def lineOf (data : Text) (c : Command) : ℕ := lineFromIndex (buildLineIndex data) c.nameOffset

/-- The scan reached the end or a call that is returned as a parse error, and each call is the
origin of an edge. -/
structure ScannedWhole (edges : List Edge) (f : Path) (data : Text) : Prop where
  calls : ∀ c ∈ (scanOf data).commands, ∀ kind, role c = .call kind →
    ∃ e ∈ edges, e.fromFile = f ∧ e.line = lineOf data c
  ended : (scanOf data).ended = .eof ∨ (scanOf data).ended = .unterminatedCall ∧
    ∃ c ∈ (scanOf data).commands, c.malformed = true ∧ ∃ e ∈ edges, e.fromFile = f ∧
      e.line = lineOf data c ∧ e.status = .unresolved ∧ e.reason = some .parseError

def Covered (p : Platform) (files : List Path) (edges : List Edge) (unscanned : List UnscannedFile)
    (f : Path) : Prop :=
  (∃ hole ∈ unscanned, hole.path = f) ∨
    f ∈ files ∧ ∃ data, p.openRegular f = .regular data ∧ ScannedWhole edges f data

structure Uncapped (r : Result) : Prop where
  node : r.nodeCapTruncated = false
  edge : r.edgeCapTruncated = false
  root : r.rootEnumerationCapped = false
  coverage : r.coverageCapTruncated = false

/-- No bracket comment is unterminated, and the only unterminated call is one that the walk reports. -/
structure EndsWell (data : Text) : Prop where
  comment : (scanOf data).ended ≠ .unterminatedComment
  call : ∀ c ∈ (scanOf data).commands, c.malformed = true →
    (∃ kind, role c = .call kind) ∨ ∃ kind, role c = .opens kind

def IllEnded (p : Platform) (f : Path) : Prop :=
  ∃ data, p.openRegular f = .regular data ∧ ¬ EndsWell data

/-- The edges that were made, those that were taken back among them. -/
def Walker.made (w : Walker) : List Edge := w.edges ++ w.takenBack

structure Grows (w w' : Walker) : Prop where
  made : w.made ⊆ w'.made
  unscanned : w.unscanned ⊆ w'.unscanned
  files : w.files ⊆ w'.files
  visited : w.visited ⊆ w'.visited
  edgeCap : w.edgeCapTruncated = true → w'.edgeCapTruncated = true
  coverageCap : w.coverageCapTruncated = true → w'.coverageCapTruncated = true
  nodeCap : w.nodeCapTruncated = true → w'.nodeCapTruncated = true

theorem Grows.refl (w : Walker) : Grows w w :=
  ⟨fun _ => id, fun _ => id, fun _ => id, fun _ => id, id, id, id⟩

variable {w w' : Walker} {frames : List Frame} {c : Command} {rest : List Command} {scope : Scope}

theorem Grows.trans {w'' : Walker} (first : Grows w w') (second : Grows w' w'') : Grows w w'' where
  made := fun _ listed => second.made (first.made listed)
  unscanned := fun _ listed => second.unscanned (first.unscanned listed)
  files := fun _ listed => second.files (first.files listed)
  visited := fun _ listed => second.visited (first.visited listed)
  edgeCap := second.edgeCap ∘ first.edgeCap
  coverageCap := second.coverageCap ∘ first.coverageCap
  nodeCap := second.nodeCap ∘ first.nodeCap

structure Walker.Uncut (w : Walker) : Prop where
  edge : w.edgeCapTruncated = false
  coverage : w.coverageCapTruncated = false

theorem Grows.uncapped (grows : Grows w w') (uncapped : w'.nodeCapTruncated = false) :
    w.nodeCapTruncated = false := by
  cases capped : w.nodeCapTruncated with
  | false => rfl
  | true => exact (grows.nodeCap capped).symm.trans uncapped

theorem Grows.uncut (grows : Grows w w') (uncut : w'.Uncut) : w.Uncut := by
  constructor
  · cases cut : w.edgeCapTruncated with
    | false => rfl
    | true => exact (grows.edgeCap cut).symm.trans uncut.edge
  · cases cut : w.coverageCapTruncated with
    | false => rfl
    | true => exact (grows.coverageCap cut).symm.trans uncut.coverage

def Walker.Accounts (p : Platform) (w : Walker) (f : Path) : Prop :=
  Covered p w.files w.made w.unscanned f ∨ IllEnded p f

variable {f path : Path} {reason : CoverageReason} {detail : Text} {busy : List Path}
  {after : List Frame} {commandLimit : Bool}

theorem ScannedWhole.mono {edges more : List Edge} {data : Text}
    (scanned : ScannedWhole edges f data) (grows : ∀ e ∈ edges, e.fromFile = f → e ∈ more) :
    ScannedWhole more f data where
  calls := fun c listed kind call => by
    obtain ⟨e, kept, file, line⟩ := scanned.calls c listed kind call
    exact ⟨e, grows e kept file, file, line⟩
  ended := by
    rcases scanned.ended with eof | ⟨ended, c, listed, bad, e, kept, file, parse⟩
    · exact .inl eof
    · exact .inr ⟨ended, c, listed, bad, e, grows e kept file, file, parse⟩

theorem Grows.accounts (grows : Grows w w') (accounts : w.Accounts p f) : w'.Accounts p f := by
  refine accounts.imp_left (fun covered => ?_)
  rcases covered with ⟨hole, listed, same⟩ | ⟨scanned, data, content, whole⟩
  · exact .inl ⟨hole, grows.unscanned listed, same⟩
  · exact .inr ⟨grows.files scanned, data, content, whole.mono (fun _ kept _ => grows.made kept)⟩

theorem recordCoverage_grows (w : Walker) (path : Path) (reason : CoverageReason) (detail : Text) :
    Grows w (w.recordCoverage p path reason detail) := by
  unfold Walker.recordCoverage
  dsimp only
  split
  · exact { Grows.refl w with coverageCap := fun _ => rfl }
  · exact { Grows.refl w with unscanned := fun _ listed => mem_append_left _ listed }

theorem recordCoverage_covers (uncut : (w.recordCoverage p path reason detail).Uncut) :
    ∃ hole ∈ (w.recordCoverage p path reason detail).unscanned, hole.path = p.canonicalize path := by
  have kept := uncut.coverage
  unfold Walker.recordCoverage at kept ⊢
  dsimp only at kept ⊢
  split at kept
  · cases kept
  · rename_i room
    rw [if_neg room]
    exact ⟨_, mem_append_right _ (mem_singleton.mpr rfl), rfl⟩

theorem recordCoverage_accounts
    (canonical : p.canonicalize path = f) (uncut : (w.recordCoverage p path reason detail).Uncut) :
    (w.recordCoverage p path reason detail).Accounts p f := by
  obtain ⟨hole, among, same⟩ := recordCoverage_covers uncut
  exact .inl (.inl ⟨hole, among, same.trans canonical⟩)

theorem recordCoverage_visited (w : Walker) (path : Path) (reason : CoverageReason)
    (detail : Text) :
    (w.recordCoverage p path reason detail).visited = w.visited := by
  unfold Walker.recordCoverage
  dsimp only
  split <;> rfl

theorem recordCoverage_edges (w : Walker) (path : Path) (reason : CoverageReason) (detail : Text) :
    (w.recordCoverage p path reason detail).edges = w.edges := by
  unfold Walker.recordCoverage
  dsimp only
  split <;> rfl

inductive Appended (w : Walker) (e : Edge) : Walker × Bool → Prop
  | refused {w' : Walker} (grows : Grows w w') (cut : w'.edgeCapTruncated = true) :
      Appended w e (w', false)
  | kept {bytes : ℤ} :
      Appended w e ({ w with edges := w.edges ++ [e], retainedEdgeBytes := bytes }, true)

theorem appendEdge_appended (w : Walker) (e : Edge) : Appended w e (w.appendEdge p e) := by
  unfold Walker.appendEdge
  dsimp only
  split
  · refine .refused ?_ rfl
    have recorded : Grows w (if w.edgeCapTruncated then w
        else w.recordCoverage p e.fromFile .edgeCapExceeded
          ("stopped retaining edges at count=".toList ++ decimal w.edges.length ++
            " bytes=".toList ++ decimal w.retainedEdgeBytes.toNat ++ " (limits: count=".toList ++
            decimal maxEdgesLimit ++ " bytes=".toList ++ decimal maxRetainedEdgeBytesLimit.toNat ++
            ")".toList)) := by
      split
      · exact .refl w
      · exact recordCoverage_grows w _ _ _
    exact { recorded with edgeCap := fun _ => rfl }
  · exact .kept

/-- The edge of a call is the call's, and a resolved one leads to a file that was visited or is
entered now. -/
structure EdgeOf (p : Platform) (w : Walker) (scope : Scope) (c : Command)
    (answer : Edge × Option Follow) : Prop where
  origin : answer.1.fromFile = scope.file ∧ answer.1.line = scope.line c
  malformed : c.malformed = true → answer.1.status = .unresolved ∧ answer.1.reason = some .parseError
  known : answer.2 = none → answer.1.status = .resolved →
    ∃ key ∈ w.visited, answer.1.target p = some key.file
  follows : ∀ f, answer.2 = some f → scope.remaining ≠ 0 ∧ answer.1.target p = some f.canonTarget ∧
    f.canonTarget = p.canonicalize f.target

theorem findTarget_file {kind : EdgeKind} {candidate target : Path}
    (found : findTarget p kind candidate = .file target) : target = targetPath kind candidate := by
  unfold findTarget at found
  split at found
  case h_5 =>
    split at found
    all_goals first
      | exact (Target.file.inj found).symm
      | cases found
  all_goals first
    | exact (Target.file.inj found).symm
    | cases found

theorem callEdge_edgeOf (w : Walker) (scope : Scope) (macroDepth : ℕ) (conditional : Bool)
    (kind : EdgeKind) (c : Command) :
    EdgeOf p w scope c (callEdge p w scope macroDepth conditional kind c) := by
  have unresolved {e : Edge} (origin : e.fromFile = scope.file ∧ e.line = scope.line c)
      (status : e.status ≠ .resolved)
      (malformed : c.malformed = true → e.status = .unresolved ∧ e.reason = some .parseError) :
      EdgeOf p w scope c (e, none) :=
    ⟨origin, malformed, fun _ resolved => absurd resolved status, nofun⟩
  unfold callEdge
  dsimp only
  cases bad : c.malformed with
  | true =>
    have raw : scope.arguments kind c = ([], true, false) := by
      unfold Scope.arguments
      rw [if_pos bad]
    rw [raw]
    exact unresolved ⟨rfl, rfl⟩ nofun (fun _ => ⟨rfl, rfl⟩)
  | false =>
    have fine (e : Edge) : c.malformed = true → e.status = .unresolved ∧ e.reason = some .parseError := by
      intro other
      rw [bad] at other
      cases other
    split
    · exact unresolved ⟨rfl, rfl⟩ nofun (fine _)
    split
    · exact unresolved ⟨rfl, rfl⟩ nofun (fine _)
    split
    · exact unresolved ⟨rfl, rfl⟩ nofun (fine _)
    · exact unresolved ⟨rfl, rfl⟩ nofun (fine _)
    · refine unresolved ⟨rfl, rfl⟩ ?_ (fine _)
      split <;> nofun
    rename_i target found
    have same := findTarget_file found
    split
    · exact unresolved ⟨rfl, rfl⟩ nofun (fine _)
    split
    · exact unresolved ⟨rfl, rfl⟩ nofun (fine _)
    split
    · rename_i visited
      refine ⟨⟨rfl, rfl⟩, fine _, fun _ _ => ?_, nofun⟩
      exact ⟨_, contains_iff_mem.mp visited, by rw [same]; rfl⟩
    split
    · exact unresolved ⟨rfl, rfl⟩ nofun (fine _)
    · rename_i room
      refine ⟨⟨rfl, rfl⟩, fine _, nofun, fun f followed => ?_⟩
      cases followed
      exact ⟨fun last => room (.inl last), by rw [same]; rfl, rfl⟩

/-- Every visited file is accounted for or being scanned, and every resolved edge leads to a visited
file. -/
structure Sound (p : Platform) (w : Walker) (busy : List Path) : Prop where
  visited : ∀ key ∈ w.visited, key.file ∈ busy ∨ w.Accounts p key.file
  resolved : ∀ e ∈ w.edges, e.status = .resolved → ∃ key ∈ w.visited, e.target p = some key.file

theorem Sound.finish {w : Walker} {f : Path} {busy : List Path} (holds : Sound p w (f :: busy))
    (accounts : w.Accounts p f) : Sound p w busy where
  resolved := holds.resolved
  visited := by
    intro key listed
    rcases holds.visited key listed with scanning | done
    · rcases mem_cons.mp scanning with rfl | other
      · exact .inr accounts
      · exact .inl other
    · exact .inr done

theorem Sound.still (holds : Sound p w busy) (grows : Grows w w')
    (visited : w'.visited = w.visited) (edges : w'.edges = w.edges) : Sound p w' busy where
  visited := by
    rw [visited]
    exact fun key listed => (holds.visited key listed).imp id grows.accounts
  resolved := by
    rw [visited, edges]
    exact holds.resolved

theorem Sound.record (holds : Sound p w busy) (path : Path)
    (reason : CoverageReason) (detail : Text) :
    Sound p (w.recordCoverage p path reason detail) busy :=
  holds.still (recordCoverage_grows w _ _ _) (recordCoverage_visited w _ _ _)
    (recordCoverage_edges w _ _ _)

def VisitOk (p : Platform) (visit : Visit) : Prop :=
  ∀ w file ctx ancestors, Grows w (visit w file ctx ancestors) ∧
    ∀ busy, (visit w file ctx ancestors).Uncut → Sound p w (p.canonicalize file :: busy) →
      Sound p (visit w file ctx ancestors) busy

def Origin (edges : List Edge) (scope : Scope) (c : Command) : Prop :=
  ∃ e ∈ edges, e.fromFile = scope.file ∧ e.line = scope.line c ∧
    (c.malformed = true → e.status = .unresolved ∧ e.reason = some .parseError)

def ClosedAtEnd (frames : List Frame) (commands : List Command) : Prop :=
  (commands = [] → frames = []) ∧ ∀ c, commands.getLast? = some c → ∀ kind, role c ≠ .opens kind

theorem ClosedAtEnd.opens {frame : Frame}
    (closed : ClosedAtEnd (frame :: frames) rest) : ClosedAtEnd frames (c :: rest) := by
  refine ⟨nofun, fun d last => ?_⟩
  have more : rest ≠ [] := fun none => nomatch closed.1 none
  rw [List.getLast?_cons, List.getLast?_eq_some_getLast more] at last
  exact closed.2 d ((List.getLast?_eq_some_getLast more).trans last)

theorem ClosedAtEnd.other
    (passes : ∀ kind, role c ≠ .opens kind) (closed : ClosedAtEnd after rest) :
    ClosedAtEnd frames (c :: rest) := by
  refine ⟨nofun, fun d last => ?_⟩
  by_cases none : rest = []
  · subst none
    obtain rfl : c = d := Option.some.inj last
    exact passes
  · rw [List.getLast?_cons, List.getLast?_eq_some_getLast none] at last
    exact closed.2 d ((List.getLast?_eq_some_getLast none).trans last)

structure Looped (p : Platform) (scope : Scope) (commandLimit : Bool) (commands : List Command)
    (frames : List Frame) (w w' : Walker) : Prop where
  grows : Grows w w'
  sound : ∀ busy, w'.Uncut → Sound p w (scope.file :: busy) → Sound p w' (scope.file :: busy)
  covered : w'.Uncut → (∃ hole ∈ w'.unscanned, hole.path = p.canonicalize scope.file) ∨
    (∀ c ∈ commands, ∀ kind, role c = .call kind → Origin w'.made scope c) ∧
      (commandLimit = false → ClosedAtEnd frames commands)

theorem looped_hole (w : Walker) (scope : Scope) (commandLimit : Bool) (commands : List Command)
    (frames : List Frame) (reason : CoverageReason) (detail : Text) :
    Looped p scope commandLimit commands frames w
      (w.recordCoverage p scope.file reason detail) where
  grows := recordCoverage_grows w _ _ _
  sound := fun _ _ holds => holds.record _ _ _
  covered := fun uncut => .inl (recordCoverage_covers uncut)

theorem retractEdges_edges (w : Walker) (start : ℕ) :
    (w.retractEdges start).edges = w.edges.take start := by
  unfold Walker.retractEdges
  split
  · rename_i short
    exact (take_of_length_le short).symm
  · rfl

theorem retractEdges_grows (w : Walker) (start : ℕ) : Grows w (w.retractEdges start) := by
  unfold Walker.retractEdges
  split
  · exact .refl w
  · refine { Grows.refl w with made := fun e listed => ?_ }
    rcases mem_append.mp listed with kept | earlier
    · rw [← take_append_drop start w.edges] at kept
      rcases mem_append.mp kept with before | behind
      · exact mem_append_left _ before
      · exact mem_append_right _ (mem_append_right _ behind)
    · exact mem_append_right _ (mem_append_left _ earlier)

theorem Sound.retract (holds : Sound p w busy) (start : ℕ) : Sound p (w.retractEdges start) busy := by
  have visited : (w.retractEdges start).visited = w.visited := by
    unfold Walker.retractEdges
    split <;> rfl
  constructor
  · rw [visited]
    exact fun key listed => (holds.visited key listed).imp id (retractEdges_grows w start).accounts
  · rw [visited, retractEdges_edges]
    exact fun e listed => holds.resolved e (mem_of_mem_take listed)

theorem closeFile_looped (w : Walker) (scope : Scope) (commandLimit : Bool) (frames : List Frame) :
    Looped p scope commandLimit [] frames w (closeFile p w scope commandLimit frames) := by
  unfold closeFile
  split
  · rename_i none
    refine ⟨.refl w, fun _ _ => id, fun _ => .inr ⟨nofun, fun _ => ⟨fun _ => ?_, nofun⟩⟩⟩
    exact List.getLast?_eq_none_iff.mp none
  · rename_i outermost last
    split
    · rename_i limit
      refine ⟨.refl w, fun _ _ => id, fun _ => .inr ⟨nofun, fun other => ?_⟩⟩
      rw [limit] at other
      cases other
    · refine ⟨?_, fun busy _ holds => ?_, fun uncut => .inl (recordCoverage_covers uncut)⟩
      · exact (retractEdges_grows w _).trans (recordCoverage_grows _ _ _ _)
      · exact (holds.retract _).record _ _ _

theorem Looped.cons {scope : Scope} {commandLimit : Bool} {c : Command} {rest : List Command}
    {frames after : List Frame} {w w₁ w' : Walker} (step : Grows w w₁)
    (keeps : ∀ busy, w'.Uncut → Sound p w (scope.file :: busy) → Sound p w₁ (scope.file :: busy))
    (origin : ∀ kind, role c = .call kind → Origin w₁.made scope c)
    (closed : commandLimit = false → ClosedAtEnd after rest → ClosedAtEnd frames (c :: rest))
    (looped : Looped p scope commandLimit rest after w₁ w') :
    Looped p scope commandLimit (c :: rest) frames w w' where
  grows := step.trans looped.grows
  sound := fun busy uncut holds => looped.sound busy uncut (keeps busy uncut holds)
  covered := by
    intro uncut
    rcases looped.covered uncut with hole | ⟨calls, ends⟩
    · exact .inl hole
    · refine .inr ⟨fun d listed kind call => ?_, fun limit => closed limit (ends limit)⟩
      rcases mem_cons.mp listed with rfl | later
      · obtain ⟨e, kept, found⟩ := origin kind call
        exact ⟨e, looped.grows.made kept, found⟩
      · exact calls d later kind call

theorem Looped.pass (notCall : ∀ kind, role c ≠ .call kind)
    (closed : ClosedAtEnd after rest → ClosedAtEnd frames (c :: rest))
    (looped : Looped p scope commandLimit rest after w w') :
    Looped p scope commandLimit (c :: rest) frames w w' :=
  .cons (.refl w) (fun _ _ => id) (fun kind call => absurd call (notCall kind)) (fun _ => closed)
    looped

theorem grows_append (w : Walker) (e : Edge) (bytes : ℤ) :
    Grows w { w with edges := w.edges ++ [e], retainedEdgeBytes := bytes } :=
  { Grows.refl w with made := fun _ listed => by simp [Walker.made] at listed ⊢; tauto }

theorem grows_visited (w : Walker) (key : VisitKey) :
    Grows w { w with visited := key :: w.visited } :=
  { Grows.refl w with visited := fun _ earlier => mem_cons_of_mem _ earlier }

theorem Sound.append {bytes : ℤ}
    {e : Edge} (holds : Sound p w busy) (edgeOf : EdgeOf p w scope c (e, none)) :
    Sound p { w with edges := w.edges ++ [e], retainedEdgeBytes := bytes } busy where
  visited := fun key listed => (holds.visited key listed).imp id (grows_append w e bytes).accounts
  resolved := by
    intro other listed status
    rcases mem_append.mp listed with earlier | new
    · exact holds.resolved other earlier status
    · obtain rfl := mem_singleton.mp new
      exact edgeOf.known rfl status

theorem Sound.enter {w : Walker} {scope : Scope} {c : Command} {busy : List Path} {bytes : ℤ}
    {e : Edge} {f : Follow} (holds : Sound p w busy) (edgeOf : EdgeOf p w scope c (e, some f)) :
    Sound p { w with
        edges := w.edges ++ [e], retainedEdgeBytes := bytes, visited := f.key :: w.visited }
      (p.canonicalize f.target :: busy) where
  visited := by
    intro key listed
    have grows := (grows_append w e bytes).trans (grows_visited _ f.key)
    rcases mem_cons.mp listed with rfl | earlier
    · exact .inl (mem_cons.mpr (.inl (edgeOf.follows f rfl).2.2))
    · exact (holds.visited key earlier).imp (mem_cons_of_mem _) grows.accounts
  resolved := by
    intro other listed status
    rcases mem_append.mp listed with earlier | new
    · obtain ⟨key, known, leads⟩ := holds.resolved other earlier status
      exact ⟨key, mem_cons_of_mem _ known, leads⟩
    · obtain rfl := mem_singleton.mp new
      exact ⟨f.key, mem_cons_self, (edgeOf.follows f rfl).2.1⟩

theorem commandLoop_looped {visit : Visit}
    (visitOk : scope.remaining ≠ 0 → VisitOk p visit) (commands : List Command) :
    ∀ (w : Walker) (frames : List Frame) (macroDepth : ℕ),
      Looped p scope commandLimit commands frames w
        (commandLoop p visit scope commandLimit commands w frames macroDepth) := by
  induction commands with
  | nil => exact fun w frames _ => closeFile_looped w scope commandLimit frames
  | cons c rest ih =>
    intro w frames macroDepth
    rw [commandLoop]
    split
    · rename_i cut
      have impossible : ∀ {what : Prop}, w.Uncut → what := by
        intro what uncut
        rw [uncut.edge] at cut
        cases cut
      exact ⟨.refl w, fun _ _ => id, impossible⟩
    cases which : role c with
    | opens kind => exact .pass (by simp [which]) .opens (ih w _ macroDepth)
    | closes kind =>
      dsimp only
      split
      · rename_i frame outer
        split
        · exact .pass (by simp [which]) (.other (by simp [which])) (ih w outer macroDepth)
        · exact looped_hole w scope commandLimit (c :: rest) _ _ _
      · exact looped_hole w scope commandLimit (c :: rest) _ _ _
    | beginsMacro | endsMacro | other =>
      exact .pass (by simp [which]) (.other (by simp [which])) (ih w frames _)
    | call kind =>
      dsimp only
      have edgeOf := callEdge_edgeOf (p := p) w scope macroDepth (!frames.isEmpty) kind c
      revert edgeOf
      generalize callEdge p w scope macroDepth (!frames.isEmpty) kind c = answer
      obtain ⟨e, follow⟩ := answer
      intro edgeOf
      have appended := appendEdge_appended (p := p) w e
      revert appended
      generalize w.appendEdge p e = kept
      intro appended
      cases appended with
      | refused grows cut =>
        refine ⟨grows, fun _ uncut => ?_, fun uncut => ?_⟩
        · rw [uncut.edge] at cut
          cases cut
        · rw [uncut.edge] at cut
          cases cut
      | @kept bytes =>
        have origin : Origin (w.edges ++ [e] ++ w.takenBack) scope c :=
          ⟨e, by simp, edgeOf.origin.1,
            edgeOf.origin.2, edgeOf.malformed⟩
        cases follow with
        | none =>
          exact .cons (grows_append w e bytes) (fun busy _ holds => holds.append edgeOf) (fun _ _ => origin)
            (fun _ => .other (by simp [which])) (ih _ frames macroDepth)
        | some f =>
          have ok := visitOk (edgeOf.follows f rfl).1
          obtain ⟨entered, returns⟩ := ok
            { w with
              edges := w.edges ++ [e], retainedEdgeBytes := bytes
              visited := f.key :: w.visited } f.target f.ctx
            (scope.ancestors ++ [f.canonTarget])
          have looped := ih (visit { w with
              edges := w.edges ++ [e], retainedEdgeBytes := bytes
              visited := f.key :: w.visited } f.target f.ctx
              (scope.ancestors ++ [f.canonTarget])) frames macroDepth
          have grows := (grows_append w e bytes).trans (grows_visited _ f.key)
          refine .cons (grows.trans entered) (fun busy uncut holds => ?_) (fun _ _ => ?_)
            (fun _ => .other (by simp [which])) looped
          · exact returns _ (looped.grows.uncut uncut) (holds.enter edgeOf)
          · obtain ⟨first, listed, found⟩ := origin
            exact ⟨first, entered.made listed, found⟩

end McpLocalHub.CMakeGraph.Traversal
