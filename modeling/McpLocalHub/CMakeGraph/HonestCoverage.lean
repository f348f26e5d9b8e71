/- Module: CMakeGraph/HonestCoverage
   source: internal/cmakegraph/cmakegraph.go
   digest: Whole walks: the roots and resolved targets are covered unless the walk hides
   something. -/

import McpLocalHub.CMakeGraph.Coverage

set_option autoImplicit false

namespace McpLocalHub.CMakeGraph.Traversal

open Lexer Arguments List

variable {p : Platform}

theorem scan_ended {edges : List Edge} {scope : Scope} (endsWell : EndsWell scope.data)
    (unlimited : (scanOf scope.data).ended ≠ .commandLimit)
    (calls : ∀ c ∈ (scanOf scope.data).commands, ∀ kind, role c = .call kind → Origin edges scope c)
    (closed : ClosedAtEnd [] (scanOf scope.data).commands) :
    ScannedWhole edges scope.file scope.data where
  calls := by
    intro c listed kind call
    obtain ⟨e, kept, file, line, _⟩ := calls c listed kind call
    exact ⟨e, kept, file, line⟩
  ended := by
    cases ended : (scanOf scope.data).ended with
    | eof => exact .inl rfl
    | commandLimit => exact absurd ended unlimited
    | unterminatedComment => exact absurd ended endsWell.comment
    | unterminatedCall =>
      obtain ⟨c, last, bad⟩ := (scan_coherent scope.data _).2 ended
      have listed : c ∈ (scanOf scope.data).commands := mem_of_getLast? last
      rcases endsWell.call c listed bad with ⟨kind, call⟩ | ⟨kind, opens⟩
      · obtain ⟨e, kept, file, line, parse⟩ := calls c listed kind call
        exact .inr ⟨rfl, c, listed, bad, e, kept, file, line, parse bad⟩
      · exact absurd opens (closed.2 c last kind)

def Walker.list (w : Walker) (file : Path) : Walker :=
  { w with files := if w.files.contains file then w.files else w.files ++ [file] }

theorem Walker.mem_list (w : Walker) (file : Path) : file ∈ (w.list file).files := by
  unfold Walker.list
  dsimp only
  split
  · rename_i present
    exact contains_iff_mem.mp present
  · exact mem_append_right _ (mem_singleton.mpr rfl)

theorem Walker.list_grows (w : Walker) (file : Path) : Grows w (w.list file) := by
  refine { Grows.refl w with files := fun f known => ?_ }
  unfold Walker.list
  dsimp only
  split
  · exact known
  · exact mem_append_left _ known

/-- The walker in front of the commands of a file. -/
def Walker.enter (p : Platform) (w : Walker) (file : Path) (data : Text) : Walker :=
  if decide ((scanOf data).ended = .commandLimit) then
    (w.list file).recordCoverage p file .commandCapExceeded
      ("stopped command discovery at ".toList ++ decimal maxCommandInvocationsLimit ++
        " invocations".toList)
  else w.list file

structure Entered (w after : Walker) (file : Path) (data : Text) : Prop where
  grows : Grows w after
  listed : file ∈ after.files
  visited : after.visited = w.visited
  edges : after.edges = w.edges
  reported : (scanOf data).ended = .commandLimit → after.Uncut →
    ∃ hole ∈ after.unscanned, hole.path = file

section

variable {file : Path} (canonical : p.canonicalize file = file)

include canonical

theorem enter_entered (w : Walker) (data : Text) : Entered w (w.enter p file data) file data := by
  have lists := w.list_grows file
  unfold Walker.enter
  split_ifs with limit
  · have records := recordCoverage_grows (p := p) (w.list file) file .commandCapExceeded
    refine ⟨lists.trans (records _), (records _).files (w.mem_list file),
      recordCoverage_visited (w.list file) _ _ _, recordCoverage_edges (w.list file) _ _ _,
      fun _ uncut => ?_⟩
    obtain ⟨hole, among, same⟩ := recordCoverage_covers uncut
    exact ⟨hole, among, same.trans canonical⟩
  · exact ⟨lists, w.mem_list file, rfl, rfl, fun isLimit => absurd (decide_eq_true isLimit) limit⟩

variable {visit : Visit} {remaining : ℕ} {w : Walker} {data : Text} {ctx : SourceContext}
  {ancestors : List Path}

theorem walkFileData_eq : walkFileData p visit remaining w file data ctx ancestors =
    commandLoop p visit ⟨file, data, ctx, remaining, ancestors⟩
      (decide ((scanOf data).ended = .commandLimit)) (scanOf data).commands (w.enter p file data)
      [] 0 := by
  unfold walkFileData
  rw [canonical]
  rfl

theorem walkFileData_ok (visitOk : remaining ≠ 0 → VisitOk p visit)
    (content : p.openRegular file = .regular data) :
    Grows w (walkFileData p visit remaining w file data ctx ancestors) ∧
      ∀ busy, (walkFileData p visit remaining w file data ctx ancestors).Uncut →
        Sound p w (file :: busy) →
          Sound p (walkFileData p visit remaining w file data ctx ancestors) busy := by
  have entered := enter_entered canonical w data
  have looped := @commandLoop_looped p ⟨file, data, ctx, remaining, ancestors⟩
    (decide ((scanOf data).ended = .commandLimit)) visit visitOk (scanOf data).commands
    (w.enter p file data) [] 0
  rw [walkFileData_eq canonical]
  refine ⟨entered.grows.trans looped.grows, fun busy uncut holds => ?_⟩
  refine (looped.sound busy uncut
    (holds.still entered.grows entered.visited entered.edges)).finish ?_
  rcases looped.covered uncut with ⟨hole, among, same⟩ | ⟨calls, closed⟩
  · exact .inl (.inl ⟨hole, among, same.trans canonical⟩)
  by_cases limit : (scanOf data).ended = .commandLimit
  · obtain ⟨hole, among, same⟩ := entered.reported limit (looped.grows.uncut uncut)
    exact .inl (.inl ⟨hole, looped.grows.unscanned among, same⟩)
  by_cases endsWell : EndsWell data
  · refine .inl (.inr ⟨looped.grows.files entered.listed, data, content, ?_⟩)
    exact @scan_ended _ ⟨file, data, ctx, remaining, ancestors⟩ endsWell limit calls
      (closed (decide_eq_false limit))
  · exact .inr ⟨data, content, endsWell⟩

end

variable {w : Walker} {f : Path}

variable {data workspaceRoot : Text} {opts : Options}

theorem readPinnedRoot_ok {path : Path}
    (read : w.readPinnedRoot p path = .ok data) : p.openRegular path = .regular data := by
  unfold Walker.readPinnedRoot at read
  split at read
  · cases read
  split at read
  · cases read
  · cases read
  · rename_i content found
    split at read
    · cases read
    · rw [found, Except.ok.inj read]

theorem walkFileWith_ok {visit : Visit} {remaining : ℕ}
    (visitOk : remaining ≠ 0 → VisitOk p visit) : VisitOk p (walkFileWith p visit remaining) := by
  intro w file ctx ancestors
  unfold walkFileWith
  dsimp only
  cases read : w.readPinnedRoot p (p.canonicalize file) with
  | error err =>
    refine ⟨recordCoverage_grows w _ _ _, fun busy uncut holds => ?_⟩
    exact (holds.record _ _ _).finish (recordCoverage_accounts (canonicalize_idem p file) uncut)
  | ok data =>
    have content := readPinnedRoot_ok read
    exact walkFileData_ok (canonicalize_idem p file) visitOk content

theorem walkFile_ok (remaining : ℕ) : VisitOk p (walkFile p remaining) := by
  induction remaining with
  | zero => exact walkFileWith_ok (fun positive => absurd rfl positive)
  | succ remaining ih => exact walkFileWith_ok (fun _ => ih)

theorem walkRoot_ok (w : Walker) (absStart : Path) :
    Grows w (walkRoot p w absStart).1 ∧
      ((walkRoot p w absStart).1.Uncut → (walkRoot p w absStart).1.nodeCapTruncated = false →
        Sound p w [] →
          match (walkRoot p w absStart).2 with
          | none => Sound p (walkRoot p w absStart).1 [] ∧
              (walkRoot p w absStart).1.Accounts p (p.canonicalize absStart)
          | some _ => Sound p (walkRoot p w absStart).1 [p.canonicalize absStart]) := by
  have canonical := canonicalize_idem p absStart
  unfold walkRoot
  generalize p.canonicalize absStart = start at canonical ⊢
  dsimp only
  generalize SourceContext.mk start.dropLast _ = ctx
  split
  · refine ⟨recordCoverage_grows w _ _ _, fun uncut _ holds => ⟨holds.record _ _ _, ?_⟩⟩
    exact recordCoverage_accounts canonical uncut
  split
  · rename_i known
    refine ⟨.refl w, fun _ _ holds => ⟨holds, ?_⟩⟩
    exact (holds.visited _ (contains_iff_mem.mp known)).resolve_left nofun
  split
  · exact ⟨{ Grows.refl w with nodeCap := fun _ => rfl }, nofun⟩
  have enters := grows_visited w ⟨start, dedupCtx ctx⟩
  have entered (holds : Sound p w []) :
      Sound p { w with visited := ⟨start, dedupCtx ctx⟩ :: w.visited } [start] := by
    constructor
    · intro other listed
      rcases mem_cons.mp listed with rfl | known
      · exact .inl (mem_singleton.mpr rfl)
      · exact .inr (enters.accounts ((holds.visited other known).resolve_left nofun))
    · intro e listed status
      obtain ⟨other, known, leads⟩ := holds.resolved e listed status
      exact ⟨other, mem_cons_of_mem _ known, leads⟩
  split
  · split
    · refine ⟨enters.trans (recordCoverage_grows _ _ _ _), fun uncut _ holds => ?_⟩
      have covers := recordCoverage_accounts canonical uncut
      exact ⟨((entered holds).record _ _ _).finish covers, covers⟩
    · exact ⟨enters, fun _ _ holds => entered holds⟩
  · rename_i data read
    have below : w.opts.maxDepth ≠ 0 → VisitOk p (visitBelow p w.opts.maxDepth) := by
      cases w.opts.maxDepth with
      | zero => exact fun positive => absurd rfl positive
      | succ remaining => exact fun _ => walkFile_ok remaining
    obtain ⟨grows, sound⟩ := @walkFileData_ok p start canonical _ _
      { w with visited := ⟨start, dedupCtx ctx⟩ :: w.visited } data ctx [start] below
      (readPinnedRoot_ok read)
    refine ⟨enters.trans grows, fun uncut _ holds => ?_⟩
    have ended := sound [] uncut (entered holds)
    exact ⟨ended, (ended.visited _ (grows.visited mem_cons_self)).resolve_left nofun⟩

theorem walkRoots_ok (starts : List Path) (w : Walker) :
    Grows w (walkRoots p w starts) ∧
      ((walkRoots p w starts).Uncut → (walkRoots p w starts).nodeCapTruncated = false →
        Sound p w [] → Sound p (walkRoots p w starts) [] ∧
          ∀ s ∈ starts, (walkRoots p w starts).Accounts p (p.canonicalize s)) := by
  induction starts generalizing w with
  | nil => exact ⟨.refl w, fun _ _ holds => ⟨holds, nofun⟩⟩
  | cons start rest ih =>
    rw [walkRoots]
    split
    · rename_i cut
      refine ⟨{ Grows.refl w with }, fun uncut => ?_⟩
      have open_ : w.edgeCapTruncated = false := uncut.edge
      rw [cut] at open_
      cases open_
    obtain ⟨grows, sound⟩ := walkRoot_ok w start
    revert grows sound
    generalize walkRoot p w start = answer
    obtain ⟨w₁, err⟩ := answer
    intro grows sound
    have go (w₂ : Walker) (more : Grows w₁ w₂)
        (done : w₂.Uncut → w₂.nodeCapTruncated = false → Sound p w [] →
          Sound p w₂ [] ∧ w₂.Accounts p (p.canonicalize start)) :
        Grows w (walkRoots p w₂ rest) ∧ ((walkRoots p w₂ rest).Uncut →
          (walkRoots p w₂ rest).nodeCapTruncated = false → Sound p w [] →
            Sound p (walkRoots p w₂ rest) [] ∧
              ∀ s ∈ start :: rest, (walkRoots p w₂ rest).Accounts p (p.canonicalize s)) := by
      obtain ⟨later, others⟩ := ih w₂
      refine ⟨grows.trans (more.trans later), fun uncut uncapped holds => ?_⟩
      obtain ⟨here, covers⟩ := done (later.uncut uncut) (later.uncapped uncapped) holds
      obtain ⟨ended, rest⟩ := others uncut uncapped here
      refine ⟨ended, fun s listed => ?_⟩
      rcases mem_cons.mp listed with rfl | other
      · exact later.accounts covers
      · exact rest s other
    cases err with
    | none => exact go w₁ (.refl w₁) sound
    | some err =>
      have records := recordCoverage_grows (p := p) w₁ start (readCoverageReason err) err.text
      refine go _ records (fun uncut uncapped holds => ?_)
      have covers := recordCoverage_accounts rfl uncut
      have before := sound (records.uncut uncut) (records.uncapped uncapped) holds
      exact ⟨(before.record _ _ _).finish covers, covers⟩

def Walker.Fresh (w : Walker) : Prop := w.visited = [] ∧ w.edges = []

theorem Walker.Fresh.sound (fresh : w.Fresh) : Sound p w [] := by
  constructor
  · rw [fresh.1]
    exact nofun
  · rw [fresh.2]
    exact nofun

theorem newWalker_fresh (made : newWalker p workspaceRoot opts = .ok w) : w.Fresh := by
  unfold newWalker at made
  split at made
  · cases made
  split at made
  · cases made
  dsimp only at made
  split at made
  · cases made
  · cases made
    exact ⟨rfl, rfl⟩

theorem Walker.Fresh.recordCoverage (fresh : w.Fresh) (path : Path)
    (reason : CoverageReason) (detail : Text) : (w.recordCoverage p path reason detail).Fresh :=
  ⟨(recordCoverage_visited w path reason detail).trans fresh.1,
    (recordCoverage_edges w path reason detail).trans fresh.2⟩

theorem enumerate_fresh {filters : EntryFilters} {absRoot : Path} (entries : List WalkEntry) :
    ∀ {w w' : Walker} {starts found : List Path} {bytes visited : ℕ}, w.Fresh →
      enumerate p filters absRoot entries w starts bytes visited = .ok (w', found) → w'.Fresh := by
  induction entries with
  | nil =>
    intro w w' starts found bytes visited fresh done
    obtain ⟨rfl, _⟩ := Prod.mk.inj (Except.ok.inj done)
    exact fresh
  | cons entry rest ih =>
    intro w w' starts found bytes visited fresh done
    have capped (path : Path) (reason : CoverageReason) (detail : Text) :
        ({ w with rootEnumerationCapped := true }.recordCoverage p path reason detail).Fresh :=
      Walker.Fresh.recordCoverage (w := { w with rootEnumerationCapped := true }) fresh path
        reason detail
    rw [enumerate] at done
    split at done
    · cases done
    split at done
    · obtain ⟨rfl, _⟩ := Prod.mk.inj (Except.ok.inj done)
      exact capped _ _ _
    split at done
    · exact ih (fresh.recordCoverage _ _ _) done
    split at done
    · exact ih (fresh.recordCoverage _ _ _) done
    split at done
    · exact ih fresh done
    split at done
    · obtain ⟨rfl, _⟩ := Prod.mk.inj (Except.ok.inj done)
      exact capped _ _ _
    dsimp only at done
    split at done
    · obtain ⟨rfl, _⟩ := Prod.mk.inj (Except.ok.inj done)
      exact capped _ _ _
    · exact ih fresh done

theorem treeRoots_fresh {root : Text} {entryNames : List Text} {starts : List Path}
    (found : treeRoots p root workspaceRoot entryNames opts = .ok (w, starts)) : w.Fresh := by
  unfold treeRoots at found
  split at found
  · cases found
  split at found
  · cases found
  split at found
  · cases found
  split at found
  · cases found
  rename_i made
  split at found
  · cases found
  split at found
  · cases found
  · rename_i listed
    obtain ⟨rfl, _⟩ := Prod.mk.inj (Except.ok.inj found)
    exact enumerate_fresh _ (newWalker_fresh made) listed

def Result.Covers (p : Platform) (r : Result) (f : Path) : Prop :=
  Covered p r.files r.edges r.unscannedFiles f

/-- The file loses an edge to a retraction, or its text ends in a way that the walk does not report. -/
def Result.Loses (p : Platform) (r : Result) (f : Path) : Prop :=
  (∃ e ∈ r.takenBack, e.fromFile = f) ∨ IllEnded p f

theorem result_covers {root : Path} (accounts : w.Accounts p f)
    (reported : (w.result root).Loses p f → ∃ hole ∈ (w.result root).unscannedFiles, hole.path = f) :
    (w.result root).Covers p f := by
  by_cases loses : (w.result root).Loses p f
  · exact .inl (reported loses)
  rcases accounts with (hole | ⟨scanned, data, content, whole⟩) | bad
  · exact .inl hole
  · refine .inr ⟨(perm_insertionSort _ w.files).mem_iff.mpr scanned, data, content, ?_⟩
    refine whole.mono (fun e made file => (mem_append.mp made).resolve_right (fun lost => ?_))
    exact loses (.inl ⟨e, lost, file⟩)
  · exact absurd (.inr bad) loses

theorem Sound.targets (holds : Sound p w []) {e : Edge}
    (listed : e ∈ w.edges) (status : e.status = .resolved) (leads : e.target p = some f) :
    w.Accounts p f := by
  obtain ⟨key, known, other⟩ := holds.resolved e listed status
  obtain rfl : key.file = f := Option.some.inj (other.symm.trans leads)
  exact (holds.visited key known).resolve_left nofun

def diskOf (files : List (Path × Text)) : Platform where
  cwd := ["w".toList]
  toLower := fun text => text.map Char.toLower
  equalFold := fun a b => decide (a.map Char.toLower = b.map Char.toLower)
  evalSymlinks := fun path => if files.any (fun file => path.isPrefixOf file.1) then some path else none
  stat := fun path =>
    if (files.lookup path).isSome then .regular
    else if files.any (fun file => path.isPrefixOf file.1) then .dir
    else .notExist
  sameFile := fun a b => decide (a = b)
  openRoot := fun _ => true
  openRegular := fun path =>
    match files.lookup path with
    | some content => .regular content
    | none => .failed "no such file".toList
  walkDir := fun root => ⟨root, none, true, false⟩ ::
    (files.filter (fun file => root.isPrefixOf file.1)).map (fun file => ⟨file.1, none, false, false⟩)
  evalSymlinks_stable := by
    intro path real found
    split at found
    · rename_i present
      cases found
      exact if_pos present
    · cases found

theorem ok_of_check {ε α : Type} (x : Except ε α) (P : α → Prop) [DecidablePred P]
    (checked : x.toOption.any (fun r => decide (P r)) = true) : ∃ r, x = .ok r ∧ P r := by
  obtain ⟨r, found, holds⟩ := (Option.any_eq_true _ _).mp checked
  cases x with
  | error err => cases found
  | ok value =>
    obtain rfl := Option.some.inj found
    exact ⟨value, rfl, of_decide_eq_true holds⟩

instance (r : Result) : Decidable (Uncapped r) :=
  decidable_of_iff (r.nodeCapTruncated = false ∧ r.edgeCapTruncated = false ∧
      r.rootEnumerationCapped = false ∧ r.coverageCapTruncated = false)
    ⟨fun all => ⟨all.1, all.2.1, all.2.2.1, all.2.2.2⟩,
      fun all => ⟨all.node, all.edge, all.root, all.coverage⟩⟩

def unclosedTree : Platform := diskOf
  [(["w".toList, "CMakeLists.txt".toList],
      "include(before.cmake)\nif(FLAG)\ninclude(inside.cmake)\n".toList),
    (["w".toList, "before.cmake".toList], "# leaf\n".toList),
    (["w".toList, "inside.cmake".toList], "include(leaked.cmake)\n".toList),
    (["w".toList, "leaked.cmake".toList], "# leaf\n".toList)]

def sharedTree : Platform := diskOf
  [(["w".toList, "a.cmake".toList],
      "if(X)\ninclude($\x7bCMAKE_CURRENT_LIST_DIR\x7d/b.cmake)\n".toList),
    (["w".toList, "b.cmake".toList], "include($\x7bCMAKE_CURRENT_LIST_DIR\x7d/c.cmake)\n".toList),
    (["w".toList, "z.cmake".toList], "include($\x7bCMAKE_CURRENT_LIST_DIR\x7d/b.cmake)\n".toList)]

def commentTree : Platform := diskOf
  [(["w".toList, "CMakeLists.txt".toList], "#[[\ninclude(b.cmake)\n".toList)]

end McpLocalHub.CMakeGraph.Traversal
