/- Module: Hub/ToolsDrain
   source: internal/api/hub_mcp_aggregator.go
   digest: The drain of a paginated tools/list, against the chain of its pages. -/

import McpLocalHub.Foundation.Loops
import McpLocalHub.Foundation.RawJSON
import Mathlib.Algebra.BigOperators.Group.List.Basic
import Mathlib.Algebra.Order.Ring.Int
import Mathlib.Data.List.Nodup

set_option autoImplicit false

namespace McpLocalHub.Hub.ToolsDrain

open Foundation.Loops Foundation.RawJSON List Option

structure ResultMember where
  tools : Option (List Line)
  nextCursor : Option String

structure Envelope where
  error : Option (ℤ × String) := none
  result : Option ResultMember := none

/-- What `doDaemonPostSized` returns without an error: the wire bytes read, and the body, decoded
or with the decoder's complaint. -/
structure Reply where
  bytesRead : ℕ
  body : Except String Envelope

abbrev Daemon := Option String → Except String Reply

structure Page where
  tools : List Line
  nextCursor : Option String
  bytes : ℕ

def readEnvelope (bytes : ℕ) (env : Envelope) : Except String Page :=
  match env.error with
  | some (code, message) => .error ("daemon error code=" ++ toString code ++ ": " ++ message)
  | none =>
    match env.result with
    | none => .error "daemon tools/list response missing `result` field"
    | some result =>
      match result.tools with
      | none => .error "daemon tools/list response missing `result.tools` field"
      | some tools => .ok ⟨tools, result.nextCursor, bytes⟩

def readPage (reply : Reply) : Except String Page :=
  match reply.body with
  | .error err => .error ("parse: " ++ err)
  | .ok env => readEnvelope reply.bytesRead env

def answer (daemon : Daemon) (cursor : Option String) : Except String Page :=
  match daemon cursor with
  | .error err => .error err
  | .ok reply => readPage reply

variable {page : Page} {daemon : Daemon} {pages : List Page}

theorem readPage_bytes {reply : Reply} (read : readPage reply = .ok page) :
    page.bytes = reply.bytesRead := by
  unfold readPage readEnvelope at read
  split at read
  · cases read
  · split at read
    · cases read
    · split at read
      · cases read
      · split at read
        · cases read
        · cases read
          rfl

def maxToolsListPages : ℕ := 10000

structure Drain where
  page : ℕ := 0
  tools : List Line := []
  seenCursors : List String := []
  totalBytes : ℕ := 0
  cursor : Option String := none
  requested : List (Option String) := []

structure Outcome where
  requested : List (Option String)
  result : Except String (List Line)

def acceptPage (s : Drain) (page : Page) : Drain ⊕ Outcome :=
  let requested := s.requested ++ [s.cursor]
  let tools := s.tools ++ page.tools
  match page.nextCursor with
  | none => .inr ⟨requested, .ok tools⟩
  | some nc =>
    if nc ∈ s.seenCursors then
      .inr ⟨requested, .error "daemon tools/list returned a repeated cursor (pagination loop)"⟩
    else
      .inl ⟨s.page + 1, tools, s.seenCursors ++ [nc], s.totalBytes + page.bytes, some nc, requested⟩

/-- The body of the loop. `maxBytes` is `maxToolsListTotalBytes`, a variable of the source. -/
def turn (maxBytes : ℕ) (daemon : Daemon) (s : Drain) : Drain ⊕ Outcome :=
  let requested := s.requested ++ [s.cursor]
  if maxToolsListPages ≤ s.page then
    .inr ⟨s.requested, .error ("daemon tools/list exceeded " ++ toString maxToolsListPages ++
      " pages (runaway pagination)")⟩
  else
    match daemon s.cursor with
    | .error err => .inr ⟨requested, .error err⟩
    | .ok reply =>
      -- The bytes are charged before the body is looked at.
      if maxBytes < s.totalBytes + reply.bytesRead then
        .inr ⟨requested, .error ("daemon tools/list exceeded " ++ toString maxBytes ++
          " cumulative response bytes across pages (runaway payload)")⟩
      else
        match readPage reply with
        | .error err => .inr ⟨requested, .error err⟩
        | .ok page => acceptPage s page

def postToolsList (fuel maxBytes : ℕ) (daemon : Daemon) : Option Outcome :=
  loop (turn maxBytes daemon) fuel {}

inductive Turned (maxBytes : ℕ) (daemon : Daemon) (s : Drain) : Drain ⊕ Outcome → Prop
  | overCap (err : String) (reached : maxToolsListPages ≤ s.page) :
      Turned maxBytes daemon s (.inr ⟨s.requested, .error err⟩)
  | failed (err cause : String) (answered : answer daemon s.cursor = .error cause) :
      Turned maxBytes daemon s (.inr ⟨s.requested ++ [s.cursor], .error err⟩)
  | overBudget (err : String) (page : Page) (answered : answer daemon s.cursor = .ok page)
      (exceeds : maxBytes < s.totalBytes + page.bytes) :
      Turned maxBytes daemon s (.inr ⟨s.requested ++ [s.cursor], .error err⟩)
  | repeated (err nc : String) (page : Page) (answered : answer daemon s.cursor = .ok page)
      (next : page.nextCursor = some nc) (seen : nc ∈ s.seenCursors) :
      Turned maxBytes daemon s (.inr ⟨s.requested ++ [s.cursor], .error err⟩)
  | last (page : Page) (below : s.page < maxToolsListPages)
      (answered : answer daemon s.cursor = .ok page)
      (fits : s.totalBytes + page.bytes ≤ maxBytes) (next : page.nextCursor = none) :
      Turned maxBytes daemon s (.inr ⟨s.requested ++ [s.cursor], .ok (s.tools ++ page.tools)⟩)
  | more (page : Page) (nc : String) (below : s.page < maxToolsListPages)
      (answered : answer daemon s.cursor = .ok page)
      (fits : s.totalBytes + page.bytes ≤ maxBytes) (next : page.nextCursor = some nc)
      (fresh : nc ∉ s.seenCursors) :
      Turned maxBytes daemon s
        (.inl ⟨s.page + 1, s.tools ++ page.tools, s.seenCursors ++ [nc], s.totalBytes + page.bytes,
          some nc, s.requested ++ [s.cursor]⟩)

theorem turn_turned (maxBytes : ℕ) (daemon : Daemon) (s : Drain) :
    Turned maxBytes daemon s (turn maxBytes daemon s) := by
  unfold turn
  by_cases reached : maxToolsListPages ≤ s.page
  · rw [if_pos reached]
    exact .overCap _ reached
  rw [if_neg reached]
  have below : s.page < maxToolsListPages := Nat.lt_of_not_le reached
  cases asked : daemon s.cursor with
  | error err => exact .failed err err (by rw [answer, asked])
  | ok reply =>
    have answered : answer daemon s.cursor = readPage reply := by rw [answer, asked]
    cases read : readPage reply with
    | error err =>
      simp only [read]
      split_ifs
      · exact .failed _ err (answered.trans read)
      · exact .failed err err (answered.trans read)
    | ok page =>
      have answeredPage := answered.trans read
      have size : page.bytes = reply.bytesRead := readPage_bytes read
      simp only [read]
      split_ifs with exceeds
      · exact .overBudget _ page answeredPage (size ▸ exceeds)
      · have fits : s.totalBytes + page.bytes ≤ maxBytes := by omega
        cases next : page.nextCursor with
        | none =>
          simp only [acceptPage, next]
          exact .last page below answeredPage fits next
        | some nc =>
          simp only [acceptPage, next]
          split_ifs with seen
          · exact .repeated _ nc page answeredPage next seen
          · exact .more page nc below answeredPage fits next seen

/-- The cursor of the `n`-th request on the way that the next cursors lead, if the way is that
long. Nothing is bounded here. -/
def requestAt (daemon : Daemon) : ℕ → Option (Option String)
  | 0 => some none
  | n + 1 =>
    (requestAt daemon n).bind (fun cursor =>
      match answer daemon cursor with
      | .error _ => none
      | .ok page => page.nextCursor.map some)

def pageAt (daemon : Daemon) (n : ℕ) : Option (Except String Page) :=
  (requestAt daemon n).map (answer daemon)

def IsChain (daemon : Daemon) (pages : List Page) : Prop :=
  ∀ n, pageAt daemon n = pages[n]?.map Except.ok

def Begins (daemon : Daemon) (pages : List Page) : Prop :=
  ∀ n page, pages[n]? = some page → pageAt daemon n = some (.ok page)

inductive Undrainable (maxBytes : ℕ) (daemon : Daemon) : Prop
  | errorPage (n : ℕ) (err : String) (page : pageAt daemon n = some (.error err))
  | repeatedCursor (i j : ℕ) (first second : Page) (cursor : String) (order : i < j)
      (firstPage : pageAt daemon i = some (.ok first))
      (secondPage : pageAt daemon j = some (.ok second))
      (firstNext : first.nextCursor = some cursor) (secondNext : second.nextCursor = some cursor)
  | overBudget (pages : List Page) (begins : Begins daemon pages)
      (exceeds : maxBytes < (pages.map Page.bytes).sum)
  | overCap (longer : (pageAt daemon maxToolsListPages).isSome)

theorem requestAt_succ {n : ℕ} (here : pageAt daemon n = some (.ok page)) :
    requestAt daemon (n + 1) = page.nextCursor.map some := by
  obtain ⟨cursor, requested, answered⟩ := map_eq_some_iff.mp here
  rw [requestAt, requested, bind_some, answered]

theorem requestAt_none_of_le {m n : ℕ} (later : m ≤ n)
    (ended : requestAt daemon m = none) : requestAt daemon n = none := by
  induction n, later using Nat.le_induction with
  | base => exact ended
  | succ n _ ih => rw [requestAt, ih, bind_none]

theorem isChain_of_begins
    (begins : Begins daemon (pages ++ [page])) (last : page.nextCursor = none) :
    IsChain daemon (pages ++ [page]) := by
  intro n
  cases found : (pages ++ [page])[n]? with
  | some here => exact begins n here found
  | none =>
    have beyond : pages.length + 1 ≤ n := by simpa using List.getElem?_eq_none_iff.mp found
    have here : pageAt daemon pages.length = some (.ok page) := begins _ _ (by simp)
    have ended : requestAt daemon (pages.length + 1) = none := by
      rw [requestAt_succ here, last, map_none]
    rw [pageAt, requestAt_none_of_le beyond ended]
    rfl

theorem Begins.snoc {daemon : Daemon} {pages : List Page} {page : Page}
    (begins : Begins daemon pages) (next : pageAt daemon pages.length = some (.ok page)) :
    Begins daemon (pages ++ [page]) := by
  intro n here found
  by_cases inside : n < pages.length
  · rw [List.getElem?_append_left inside] at found
    exact begins n here found
  · rw [List.getElem?_append_right (Nat.le_of_not_lt inside)] at found
    obtain ⟨index, rfl⟩ := List.getElem?_eq_some_iff.mp found
    have last : n = pages.length := by
      simp only [length_singleton] at index
      omega
    subst last
    simpa using next

structure Followed (maxBytes : ℕ) (daemon : Daemon) (s : Drain) (pages : List Page) : Prop where
  length : pages.length = s.page
  begins : Begins daemon pages
  request : requestAt daemon s.page = some s.cursor
  tools : s.tools = pages.flatMap Page.tools
  bytes : s.totalBytes = (pages.map Page.bytes).sum
  within : s.totalBytes ≤ maxBytes
  cursors : pages.map Page.nextCursor = s.seenCursors.map some
  requested : s.requested ++ [s.cursor] = none :: s.seenCursors.map some
  distinct : s.seenCursors.Nodup

structure Drained (maxBytes : ℕ) (daemon : Daemon) (requested : List (Option String))
    (tools : List Line) (pages : List Page) : Prop where
  chain : IsChain daemon pages
  joined : tools = pages.flatMap Page.tools
  asked : ∀ n, requestAt daemon n = requested[n]?
  within : (pages.map Page.bytes).sum ≤ maxBytes
  short : pages.length ≤ maxToolsListPages

structure Settled (maxBytes : ℕ) (daemon : Daemon) (outcome : Outcome) : Prop where
  once : outcome.requested.Nodup
  drained : ∀ tools, outcome.result = .ok tools →
    ∃ pages, Drained maxBytes daemon outcome.requested tools pages
  undrained : ∀ err, outcome.result = .error err → Undrainable maxBytes daemon

theorem followed_start (maxBytes : ℕ) (daemon : Daemon) : Followed maxBytes daemon {} [] where
  length := rfl
  begins := nofun
  request := rfl
  tools := rfl
  bytes := rfl
  within := Nat.zero_le _
  cursors := rfl
  requested := rfl
  distinct := .nil

section Step

variable {maxBytes : ℕ} {daemon : Daemon} {s : Drain} {pages : List Page} {page : Page}

section

variable (followed : Followed maxBytes daemon s pages)

include followed

theorem Followed.pageHere (answered : answer daemon s.cursor = .ok page) :
    pageAt daemon pages.length = some (.ok page) := by
  rw [followed.length, pageAt, followed.request, map_some, answered]

theorem Followed.requested_nodup : (s.requested ++ [s.cursor]).Nodup := by
  rw [followed.requested, nodup_cons]
  refine ⟨?_, followed.distinct.map (fun _ _ same => Option.some.inj same)⟩
  intro listed
  obtain ⟨_, _, absurd⟩ := mem_map.mp listed
  cases absurd

theorem Followed.seen_at {cursor : String} (seen : cursor ∈ s.seenCursors) :
    ∃ i first, i < pages.length ∧ pageAt daemon i = some (.ok first) ∧
      first.nextCursor = some cursor := by
  have listed : some cursor ∈ pages.map Page.nextCursor := by
    rw [followed.cursors]
    exact mem_map_of_mem seen
  obtain ⟨first, among, next⟩ := mem_map.mp listed
  obtain ⟨i, inside, found⟩ := getElem_of_mem among
  have here : pages[i]? = some first := by rw [List.getElem?_eq_getElem inside, found]
  exact ⟨i, first, inside, followed.begins i first here, next⟩

theorem Followed.requestAt_eq {n : ℕ}
    (inside : n ≤ pages.length) : requestAt daemon n = (s.requested ++ [s.cursor])[n]? := by
  rw [followed.requested]
  cases n with
  | zero => rfl
  | succ n =>
    have read : pages[n]? = some (pages.get ⟨n, inside⟩) := List.getElem?_eq_getElem inside
    have next : (s.seenCursors.map some)[n]? = some (pages.get ⟨n, inside⟩).nextCursor := by
      rw [← followed.cursors, List.getElem?_map, read, map_some]
    rw [requestAt_succ (followed.begins n _ read), List.getElem?_cons_succ, next]
    rw [List.getElem?_map] at next
    obtain ⟨cursor, _, same⟩ := map_eq_some_iff.mp next
    rw [← same, map_some]

end

theorem Followed.more {nc : String} (followed : Followed maxBytes daemon s pages)
    (answered : answer daemon s.cursor = .ok page) (fits : s.totalBytes + page.bytes ≤ maxBytes)
    (next : page.nextCursor = some nc) (fresh : nc ∉ s.seenCursors) :
    Followed maxBytes daemon
      ⟨s.page + 1, s.tools ++ page.tools, s.seenCursors ++ [nc], s.totalBytes + page.bytes,
        some nc, s.requested ++ [s.cursor]⟩ (pages ++ [page]) where
  length := by rw [length_append, followed.length, length_singleton]
  begins := followed.begins.snoc (followed.pageHere answered)
  request := by
    have here := followed.pageHere answered
    rw [followed.length] at here
    rw [requestAt_succ here, next, map_some]
  tools := by simp [followed.tools]
  bytes := by simp [followed.bytes]
  within := fits
  cursors := by simp [followed.cursors, next]
  requested := by simp [followed.requested]
  distinct := by
    rw [nodup_append]
    refine ⟨followed.distinct, nodup_singleton nc, ?_⟩
    intro seen listed later last same
    obtain rfl : later = nc := mem_singleton.mp last
    exact fresh (same ▸ listed)

theorem Followed.last (followed : Followed maxBytes daemon s pages)
    (below : s.page < maxToolsListPages) (answered : answer daemon s.cursor = .ok page)
    (fits : s.totalBytes + page.bytes ≤ maxBytes) (next : page.nextCursor = none) :
    Drained maxBytes daemon (s.requested ++ [s.cursor]) (s.tools ++ page.tools)
      (pages ++ [page]) where
  chain := isChain_of_begins (followed.begins.snoc (followed.pageHere answered)) next
  joined := by simp [followed.tools]
  asked := by
    intro n
    by_cases inside : n ≤ pages.length
    · exact followed.requestAt_eq inside
    have beyond : pages.length + 1 ≤ n := Nat.lt_of_not_le inside
    have ended : requestAt daemon (pages.length + 1) = none := by
      rw [requestAt_succ (followed.pageHere answered), next, map_none]
    have asMany : (s.requested ++ [s.cursor]).length = pages.length + 1 := by
      have same := congrArg List.length followed.cursors
      rw [followed.requested, length_cons, length_map]
      simp only [length_map] at same
      rw [same]
    rw [requestAt_none_of_le beyond ended, List.getElem?_eq_none (by omega)]
  within := by
    have total := followed.bytes
    simp only [map_append, sum_append, map_singleton, sum_singleton]
    omega
  short := by
    have length := followed.length
    rw [length_append, length_singleton]
    omega

end Step

theorem settled_of_turned {maxBytes : ℕ} {s : Drain}
    {outcome : Outcome} (followed : Followed maxBytes daemon s pages)
    (turned : Turned maxBytes daemon s (.inr outcome)) : Settled maxBytes daemon outcome := by
  have once := followed.requested_nodup
  cases turned with
  | overCap err reached =>
    refine ⟨(nodup_append.mp once).1, nofun, fun _ _ => ?_⟩
    by_cases exact : s.page = maxToolsListPages
    · exact .overCap (by rw [pageAt, ← exact, followed.request]; rfl)
    · have inside : maxToolsListPages < pages.length := by
        have length := followed.length
        omega
      exact .overCap (by rw [followed.begins _ _ (List.getElem?_eq_getElem inside)]; rfl)
  | failed err cause answered =>
    refine ⟨once, nofun, fun _ _ => .errorPage s.page cause ?_⟩
    rw [pageAt, followed.request, map_some, answered]
  | overBudget err page answered exceeds =>
    refine ⟨once, nofun, fun _ _ => .overBudget (pages ++ [page]) ?_ ?_⟩
    · exact followed.begins.snoc (followed.pageHere answered)
    · have total := followed.bytes
      simp only [map_append, sum_append, map_singleton, sum_singleton]
      omega
  | repeated err nc page answered next seen =>
    obtain ⟨i, first, inside, firstPage, firstNext⟩ := followed.seen_at seen
    exact ⟨once, nofun, fun _ _ =>
      .repeatedCursor i pages.length first page nc inside firstPage (followed.pageHere answered)
        firstNext next⟩
  | last page below answered fits next =>
    refine ⟨once, fun tools done => ?_, nofun⟩
    obtain rfl : s.tools ++ page.tools = tools := Except.ok.inj done
    exact ⟨pages ++ [page], followed.last below answered fits next⟩

theorem Drained.not_undrainable {maxBytes : ℕ}
    {requested : List (Option String)} {tools : List Line}
    (drained : Drained maxBytes daemon requested tools pages) (once : requested.Nodup) :
    ¬ Undrainable maxBytes daemon := by
  rintro (⟨n, err, here⟩ | ⟨i, j, first, second, cursor, order, firstPage, secondPage, firstNext,
    secondNext⟩ | ⟨read, begins, exceeds⟩ | ⟨longer⟩)
  · rw [drained.chain n] at here
    obtain ⟨_, _, absurd⟩ := map_eq_some_iff.mp here
    cases absurd
  · have firstAsked : requested[i + 1]? = some (some cursor) := by
      rw [← drained.asked, requestAt_succ firstPage, firstNext, map_some]
    have secondAsked : requested[j + 1]? = some (some cursor) := by
      rw [← drained.asked, requestAt_succ secondPage, secondNext, map_some]
    have inside : j + 1 < requested.length := (List.getElem?_eq_some_iff.mp secondAsked).1
    exact nodup_iff_getElem?_ne_getElem?.mp once (i + 1) (j + 1) (by omega) inside
      (firstAsked.trans secondAsked.symm)
  · have initial : read <+: pages := by
      rw [prefix_iff_getElem?]
      intro n inside
      have found := begins n _ (List.getElem?_eq_getElem inside)
      rw [drained.chain n] at found
      obtain ⟨page, here, same⟩ := map_eq_some_iff.mp found
      rw [here, Except.ok.inj same]
    obtain ⟨rest, rfl⟩ := initial
    have within := drained.within
    rw [map_append, sum_append] at within
    omega
  · rw [drained.chain maxToolsListPages, isSome_map] at longer
    have inside : maxToolsListPages < pages.length := by simpa using longer
    exact absurd drained.short (Nat.not_le_of_lt inside)

theorem postToolsList_settled (maxBytes : ℕ) (daemon : Daemon) :
    ∃ outcome, Settled maxBytes daemon outcome ∧
      ∀ fuel, maxToolsListPages < fuel → postToolsList fuel maxBytes daemon = some outcome := by
  refine loop_total (fun s => ∃ pages, Followed maxBytes daemon s pages)
    (Settled maxBytes daemon) (fun s => maxToolsListPages - s.page) ?_ ?_ {}
    ⟨[], followed_start maxBytes daemon⟩
  · rintro s next ⟨pages, followed⟩ goes
    have turned := turn_turned maxBytes daemon s
    rw [goes] at turned
    cases turned with
    | more page nc below answered fits next fresh =>
      refine ⟨⟨pages ++ [page], followed.more answered fits next fresh⟩, ?_⟩
      show maxToolsListPages - (s.page + 1) < maxToolsListPages - s.page
      omega
  · rintro s outcome ⟨pages, followed⟩ returns
    exact settled_of_turned followed (returns ▸ turn_turned maxBytes daemon s)

end McpLocalHub.Hub.ToolsDrain
