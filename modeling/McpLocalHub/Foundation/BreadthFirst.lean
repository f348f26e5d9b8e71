/- Module: Foundation/BreadthFirst
   source: none (a library)
   digest: A breadth-first search that improves its paths in place finds the least of the
   shortest ones. -/

import McpLocalHub.Foundation.Loops
import McpLocalHub.Foundation.Maps
import Mathlib.Data.Finset.Card

set_option autoImplicit false

/-!
The search goes backwards: `next c` lists the keys with an edge to `c`, and a walk leads from a key
along edges to a source. A path is kept as the list of the labels on it, and two paths of the same
length are compared by `less`.

The queue holds the keys of a level and then those of the next one. A key that has left the queue
keeps its path, because its distance is at most the level that is being worked on and a path is only
replaced one level further out.
-/

namespace McpLocalHub.Foundation.BreadthFirst

open Loops Maps List Option

variable {κ ν : Type} [DecidableEq κ]

structure Search (κ ν : Type) where
  distance : Map κ ℕ
  paths : Map κ (List ν)
  queue : List κ

def Search.distanceOf (s : Search κ ν) (key : κ) : ℕ := (s.distance.lookup key).getD 0

def Search.pathOf (s : Search κ ν) (key : κ) : List ν := (s.paths.lookup key).getD []

def Search.record (s : Search κ ν) (key : κ) (distance : ℕ) (path : List ν) : Search κ ν :=
  { s with distance := s.distance.insert key distance, paths := s.paths.insert key path }

section Algorithm

variable (next : κ → List κ) (label : κ → ν) (less : List ν → List ν → Bool)

def offer (current : κ) (s : Search κ ν) (dependent : κ) : Search κ ν :=
  let candidateDistance := s.distanceOf current + 1
  let candidatePath := label dependent :: s.pathOf current
  match s.distance.lookup dependent with
  | none =>
    { s.record dependent candidateDistance candidatePath with queue := s.queue ++ [dependent] }
  | some existing =>
    if existing < candidateDistance then s
    else if existing = candidateDistance ∧ less candidatePath (s.pathOf dependent) = false then s
    else s.record dependent candidateDistance candidatePath

def turn (s : Search κ ν) : Search κ ν ⊕ Search κ ν :=
  match s.queue with
  | [] => .inr s
  | current :: rest => .inl ((next current).foldl (offer label less current) { s with queue := rest })

def search (fuel : ℕ) (s : Search κ ν) : Option (Search κ ν) := loop (turn next label less) fuel s

end Algorithm

inductive Walk (next : κ → List κ) (source : κ → Prop) : κ → List κ → Prop
  | source {key : κ} (here : source key) : Walk next source key [key]
  | step {key c : κ} {keys : List κ} (edge : key ∈ next c) (rest : Walk next source c keys) :
      Walk next source key (key :: keys)

/-- Paths of keys of a set are compared by a cost, to which a common first key makes no
difference. -/
structure PathOrder {γ : Type} [LinearOrder γ] (keys : Finset κ) (label : κ → ν)
    (less : List ν → List ν → Bool) (cost : List κ → γ) : Prop where
  lessIff : ∀ a b : List κ, (∀ x ∈ a, x ∈ keys) → (∀ x ∈ b, x ∈ keys) →
    (less (a.map label) (b.map label) = true ↔ cost a < cost b)
  cons : ∀ (x : κ) (a b : List κ), cost a ≤ cost b → cost (x :: a) ≤ cost (x :: b)

section Invariant

variable {γ : Type} [LinearOrder γ] {next : κ → List κ} {label : κ → ν}
  {less : List ν → List ν → Bool} {cost : List κ → γ} {keys : Finset κ} {source : κ → Prop}

def Done (s : Search κ ν) (key : κ) : Prop :=
  (s.distance.lookup key).isSome = true ∧ key ∉ s.queue

structure AtLevel (s : Search κ ν) (level : ℕ) : Prop where
  split : ∃ lower upper, s.queue = lower ++ upper ∧
    (∀ key ∈ lower, s.distance.lookup key = some level) ∧
    ∀ key ∈ upper, s.distance.lookup key = some (level + 1)
  nodup : s.queue.Nodup
  done : ∀ key distance, Done s key → s.distance.lookup key = some distance → distance ≤ level

variable (next label cost keys source) in
/-- The state of the search, with the keys on every path that is kept. An edge is pending while it
has not been offered. -/
structure Inv (s : Search κ ν) (trail : κ → List κ) (pending : κ → κ → Prop) : Prop where
  inside : ∀ key, (s.distance.lookup key).isSome = true → key ∈ keys ∧ ∀ x ∈ trail key, x ∈ keys
  zero : ∀ key, s.distance.lookup key = some 0 ↔ source key
  start : ∀ key, source key → trail key = [key]
  path : ∀ key, (s.distance.lookup key).isSome = true → s.pathOf key = (trail key).map label
  parent : ∀ key distance, s.distance.lookup key = some (distance + 1) →
    ∃ c, Done s c ∧ s.distance.lookup c = some distance ∧ key ∈ next c ∧ trail key = key :: trail c
  offered : ∀ c distance, Done s c → s.distance.lookup c = some distance → ∀ key ∈ next c,
    pending c key ∨ ∃ found, s.distance.lookup key = some found ∧ found ≤ distance + 1 ∧
      (found = distance + 1 → cost (trail key) ≤ cost (key :: trail c))

variable {s : Search κ ν} {key : κ} {level : ℕ} {next' : κ → List κ}

theorem not_done_of_none (new : s.distance.lookup key = none) :
    ¬ Done s key := fun done => nomatch new ▸ done.1

theorem AtLevel.le (atLevel : AtLevel s level) {distance : ℕ}
    (found : s.distance.lookup key = some distance) : distance ≤ level + 1 := by
  by_cases listed : key ∈ s.queue
  · obtain ⟨lower, upper, queue, low, high⟩ := atLevel.split
    rw [queue] at listed
    rcases mem_append.mp listed with inLower | inUpper
    · have same := Option.some.inj (found.symm.trans (low key inLower))
      omega
    · have same := Option.some.inj (found.symm.trans (high key inUpper))
      omega
  · have bound := atLevel.done key distance ⟨isSome_of_eq_some found, listed⟩ found
    omega

def Left (current : κ) (rest : List κ) : κ → κ → Prop := fun c key => c = current ∧ key ∈ rest

variable {trail : κ → List κ} {current dependent : κ} {rest : List κ}

theorem Inv.improved {after : Search κ ν}
    (inv : Inv next label cost keys source s trail (Left current (dependent :: rest)))
    (currentDone : Done s current) (currentAt : s.distance.lookup current = some level)
    (edge : dependent ∈ next current) (member : dependent ∈ keys) (waiting : ¬ Done s dependent)
    (better : ∀ found, s.distance.lookup dependent = some found →
      found = level + 1 ∧ cost (dependent :: trail current) ≤ cost (trail dependent))
    (distances : ∀ key, after.distance.lookup key =
      if key = dependent then some (level + 1) else s.distance.lookup key)
    (paths : ∀ key, after.pathOf key =
      if key = dependent then label dependent :: s.pathOf current else s.pathOf key)
    (done : ∀ key, Done after key ↔ Done s key) :
    Inv next label cost keys source after
      (Function.update trail dependent (dependent :: trail current)) (Left current rest) := by
  have own : after.distance.lookup dependent = some (level + 1) := (distances dependent).trans (if_pos rfl)
  have elsewhere {key : κ} (other : key ≠ dependent) :
      after.distance.lookup key = s.distance.lookup key := (distances key).trans (if_neg other)
  have settled {key : κ} (isDone : Done s key) : key ≠ dependent := fun same => waiting (same ▸ isDone)
  have ownTrail : Function.update trail dependent (dependent :: trail current) dependent =
      dependent :: trail current := Function.update_self ..
  have keptTrail {key : κ} (other : key ≠ dependent) :
      Function.update trail dependent (dependent :: trail current) key = trail key :=
    Function.update_of_ne other ..
  have notSource : ¬ source dependent := by
    intro isSource
    have found := (inv.zero dependent).mpr isSource
    have later := (better 0 found).1
    omega
  constructor
  · intro key seen
    by_cases same : key = dependent
    · subst same
      rw [ownTrail]
      exact ⟨member, forall_mem_cons.mpr ⟨member, (inv.inside current currentDone.1).2⟩⟩
    · rw [elsewhere same] at seen
      rw [keptTrail same]
      exact inv.inside key seen
  · intro key
    by_cases same : key = dependent
    · subst same
      rw [own]
      exact ⟨fun zero => absurd (Option.some.inj zero) (Nat.succ_ne_zero level),
        fun isSource => absurd isSource notSource⟩
    · rw [elsewhere same]
      exact inv.zero key
  · intro key isSource
    rw [keptTrail (fun same => notSource (same ▸ isSource))]
    exact inv.start key isSource
  · intro key seen
    by_cases same : key = dependent
    · subst same
      rw [paths, if_pos rfl, ownTrail, map_cons, inv.path current currentDone.1]
    · rw [elsewhere same] at seen
      rw [paths, if_neg same, keptTrail same]
      exact inv.path key seen
  · intro key distance found
    by_cases same : key = dependent
    · subst same
      rw [own] at found
      cases found
      refine ⟨current, (done current).mpr currentDone, ?_, edge, ?_⟩
      · rw [elsewhere (settled currentDone)]
        exact currentAt
      · rw [ownTrail, keptTrail (settled currentDone)]
    · rw [elsewhere same] at found
      obtain ⟨c, isDone, foundC, edgeC, trailC⟩ := inv.parent key distance found
      refine ⟨c, (done c).mpr isDone, ?_, edgeC, ?_⟩
      · rw [elsewhere (settled isDone)]
        exact foundC
      · rw [keptTrail same, keptTrail (settled isDone)]
        exact trailC
  · intro c distance isDone found key listed
    have doneC := (done c).mp isDone
    rw [elsewhere (settled doneC)] at found
    rw [keptTrail (settled doneC)]
    by_cases same : key = dependent
    · subst same
      rw [ownTrail]
      refine .inr ⟨level + 1, own, ?_⟩
      rcases inv.offered c distance doneC found key listed with ⟨rfl, -⟩ | ⟨earlier, at_, bound, least⟩
      · cases currentAt.symm.trans found
        exact ⟨le_refl _, fun _ => le_refl _⟩
      · obtain ⟨rfl, lesser⟩ := better earlier at_
        exact ⟨bound, fun equal => lesser.trans (least equal)⟩
    · rw [elsewhere same, keptTrail same]
      rcases inv.offered c distance doneC found key listed with ⟨isCurrent, inList⟩ | offered
      · rcases mem_cons.mp inList with isDependent | later
        · exact absurd isDependent same
        · exact .inl ⟨isCurrent, later⟩
      · exact .inr offered

theorem Inv.refused
    (inv : Inv next label cost keys source s trail (Left current (dependent :: rest)))
    (currentAt : s.distance.lookup current = some level) {found : ℕ}
    (at_ : s.distance.lookup dependent = some found) (bound : found ≤ level + 1)
    (least : found = level + 1 → cost (trail dependent) ≤ cost (dependent :: trail current)) :
    Inv next label cost keys source s trail (Left current rest) :=
  { inv with
    offered := by
      intro c distance isDone foundC key listed
      rcases inv.offered c distance isDone foundC key listed with ⟨rfl, inList⟩ | offered
      · rcases mem_cons.mp inList with rfl | later
        · cases currentAt.symm.trans foundC
          exact .inr ⟨found, at_, bound, least⟩
        · exact .inl ⟨rfl, later⟩
      · exact .inr offered }

inductive Offered (less : List ν → List ν → Bool) (s : Search κ ν) (dependent : κ) (distance : ℕ)
    (path : List ν) : Search κ ν → Prop
  | queued (new : s.distance.lookup dependent = none) :
      Offered less s dependent distance path
        { s.record dependent distance path with queue := s.queue ++ [dependent] }
  | kept {existing : ℕ} (found : s.distance.lookup dependent = some existing)
      (reason : existing < distance ∨ existing = distance ∧ less path (s.pathOf dependent) = false) :
      Offered less s dependent distance path s
  | replaced {existing : ℕ} (found : s.distance.lookup dependent = some existing)
      (longer : distance ≤ existing)
      (lesser : existing = distance → less path (s.pathOf dependent) = true) :
      Offered less s dependent distance path (s.record dependent distance path)

theorem offer_offered (label : κ → ν) (less : List ν → List ν → Bool) (current dependent : κ)
    (s : Search κ ν) :
    Offered less s dependent (s.distanceOf current + 1) (label dependent :: s.pathOf current)
      (offer label less current s dependent) := by
  unfold offer
  dsimp only
  split
  · rename_i new
    exact .queued new
  · rename_i existing found
    split_ifs with shorter kept
    · exact .kept found (.inl shorter)
    · exact .kept found (.inr kept)
    · refine .replaced found (not_lt.mp shorter) (fun same => ?_)
      exact Bool.not_eq_false _ ▸ fun isFalse => kept ⟨same, isFalse⟩

section Record

variable (s : Search κ ν) (dependent : κ) (distance : ℕ) (path : List ν)

theorem lookup_record (key : κ) : (s.record dependent distance path).distance.lookup key =
    if key = dependent then some distance else s.distance.lookup key := by
  split_ifs with same
  · rw [same]
    exact AList.lookup_insert s.distance
  · exact AList.lookup_insert_ne same

theorem pathOf_record (key : κ) : (s.record dependent distance path).pathOf key =
    if key = dependent then path else s.pathOf key := by
  unfold Search.pathOf Search.record
  split_ifs with same
  · rw [same, AList.lookup_insert]
    rfl
  · rw [AList.lookup_insert_ne same]

end Record

theorem AtLevel.isSome_of_queued (atLevel : AtLevel s level) (listed : key ∈ s.queue) :
    (s.distance.lookup key).isSome = true := by
  obtain ⟨lower, upper, queue, low, high⟩ := atLevel.split
  rw [queue] at listed
  rcases mem_append.mp listed with inLower | inUpper
  · exact isSome_of_eq_some (low key inLower)
  · exact isSome_of_eq_some (high key inUpper)

theorem AtLevel.queued (atLevel : AtLevel s level) (after : Search κ ν)
    (new : s.distance.lookup dependent = none)
    (distances : ∀ key, after.distance.lookup key =
      if key = dependent then some (level + 1) else s.distance.lookup key)
    (queue : after.queue = s.queue ++ [dependent]) :
    AtLevel after level ∧ ∀ key, Done after key ↔ Done s key := by
  have unlisted : dependent ∉ s.queue := fun listed => nomatch new ▸ atLevel.isSome_of_queued listed
  have elsewhere {key : κ} (other : key ≠ dependent) :
      after.distance.lookup key = s.distance.lookup key := (distances key).trans (if_neg other)
  have done : ∀ key, Done after key ↔ Done s key := by
    intro key
    unfold Done
    by_cases same : key = dependent
    · subst same
      rw [queue, new]
      simp
    · rw [elsewhere same, queue]
      simp [same]
  refine ⟨⟨?_, ?_, ?_⟩, done⟩
  · obtain ⟨lower, upper, split, low, high⟩ := atLevel.split
    have away {key : κ} (listed : key ∈ s.queue) : key ≠ dependent :=
      fun same => unlisted (same ▸ listed)
    refine ⟨lower, upper ++ [dependent], by rw [queue, split, append_assoc], ?_, ?_⟩
    · intro key inLower
      rw [elsewhere (away (split ▸ mem_append_left upper inLower))]
      exact low key inLower
    · intro key inUpper
      rcases mem_append.mp inUpper with earlier | own
      · rw [elsewhere (away (split ▸ mem_append_right lower earlier))]
        exact high key earlier
      · rw [mem_singleton.mp own, distances, if_pos rfl]
  · rw [queue]
    exact List.Nodup.append atLevel.nodup (nodup_singleton dependent)
      (disjoint_singleton.mpr unlisted)
  · intro key distance isDone found
    have before := (done key).mp isDone
    have other : key ≠ dependent := fun same => not_done_of_none new (same ▸ before)
    rw [elsewhere other] at found
    exact atLevel.done key distance before found

theorem AtLevel.replaced (atLevel : AtLevel s level) (after : Search κ ν)
    (distances : ∀ key, after.distance.lookup key = s.distance.lookup key)
    (queue : after.queue = s.queue) :
    AtLevel after level ∧ ∀ key, Done after key ↔ Done s key := by
  have done : ∀ key, Done after key ↔ Done s key := by
    intro key
    unfold Done
    rw [distances, queue]
  refine ⟨⟨?_, ?_, ?_⟩, done⟩
  · simp only [queue, distances]
    exact atLevel.split
  · rw [queue]
    exact atLevel.nodup
  · intro key distance isDone found
    rw [distances] at found
    exact atLevel.done key distance ((done key).mp isDone) found

theorem offer_spec (order : PathOrder keys label less cost)
    (inv : Inv next label cost keys source s trail (Left current (dependent :: rest)))
    (atLevel : AtLevel s level) (currentDone : Done s current)
    (currentAt : s.distance.lookup current = some level) (edge : dependent ∈ next current)
    (member : dependent ∈ keys) :
    (AtLevel (offer label less current s dependent) level ∧
      ∀ key, Done (offer label less current s dependent) key ↔ Done s key) ∧
      (offer label less current s dependent).distance.lookup current = some level ∧
      ∃ newTrail, Inv next label cost keys source (offer label less current s dependent) newTrail
        (Left current rest) := by
  have candidate : s.distanceOf current = level := by
    unfold Search.distanceOf
    rw [currentAt]
    rfl
  have candidatePath : label dependent :: s.pathOf current = (dependent :: trail current).map label := by
    rw [map_cons, inv.path current currentDone.1]
  have candidateInside : ∀ x ∈ dependent :: trail current, x ∈ keys :=
    forall_mem_cons.mpr ⟨member, (inv.inside current currentDone.1).2⟩
  have distances := lookup_record s dependent (level + 1) (label dependent :: s.pathOf current)
  have paths := pathOf_record s dependent (level + 1) (label dependent :: s.pathOf current)
  have offered := offer_offered label less current dependent s
  rw [candidate] at offered
  generalize offer label less current s dependent = after at offered ⊢
  cases offered with
  | queued new =>
    have apart : current ≠ dependent := by
      rintro rfl
      exact some_ne_none level (currentAt.symm.trans new)
    obtain ⟨levelAfter, done⟩ := atLevel.queued
      { s.record dependent (level + 1) (label dependent :: s.pathOf current) with
        queue := s.queue ++ [dependent] } new distances rfl
    refine ⟨⟨levelAfter, done⟩, ?_, _, inv.improved currentDone currentAt edge member
      (not_done_of_none new)
      (fun found at_ => absurd (at_.symm.trans new) (some_ne_none found))
      distances paths done⟩
    exact (distances current).trans ((if_neg apart).trans currentAt)
  | kept found reason =>
    refine ⟨⟨atLevel, fun _ => Iff.rfl⟩, currentAt, trail, inv.refused currentAt found ?_ ?_⟩
    · rcases reason with shorter | ⟨same, -⟩
      · exact shorter.le
      · exact same.le
    · intro same
      rcases reason with shorter | ⟨-, notLess⟩
      · exact absurd same shorter.ne
      · have seen := isSome_of_eq_some found
        rw [candidatePath, inv.path dependent seen] at notLess
        refine not_lt.mp (fun less_ => ?_)
        have claimed := (order.lessIff _ _ candidateInside (inv.inside dependent seen).2).mpr less_
        exact absurd (notLess.symm.trans claimed) Bool.false_ne_true
  | replaced found longer lesser =>
    obtain rfl := le_antisymm (atLevel.le found) longer
    have seen := isSome_of_eq_some found
    have waiting : ¬ Done s dependent := by
      intro isDone
      have bound := atLevel.done dependent _ isDone found
      omega
    have better : cost (dependent :: trail current) ≤ cost (trail dependent) := by
      have isLess := lesser rfl
      rw [candidatePath, inv.path dependent seen] at isLess
      exact ((order.lessIff _ _ candidateInside (inv.inside dependent seen).2).mp isLess).le
    have kept : ∀ key, (s.record dependent (level + 1)
        (label dependent :: s.pathOf current)).distance.lookup key = s.distance.lookup key := by
      intro key
      rw [distances]
      split_ifs with own
      · rw [own, found]
      · rfl
    obtain ⟨levelAfter, done⟩ := atLevel.replaced
      (s.record dependent (level + 1) (label dependent :: s.pathOf current)) kept rfl
    refine ⟨⟨levelAfter, done⟩, (kept current).trans currentAt, _,
      inv.improved currentDone currentAt edge member waiting (fun other at_ => ?_)
        distances paths done⟩
    cases at_.symm.trans found
    exact ⟨rfl, better⟩

def remaining (keys : Finset κ) (s : Search κ ν) : ℕ :=
  (keys.filter (fun key => s.distance.lookup key = none)).card + s.queue.length

theorem offer_remaining (member : dependent ∈ keys) :
    remaining keys (offer label less current s dependent) ≤ remaining keys s := by
  have fewer (distance : ℕ) (path : List ν) :
      keys.filter (fun key => (s.record dependent distance path).distance.lookup key = none) ⊆
        keys.filter (fun key => s.distance.lookup key = none) := by
    intro key inside
    rw [Finset.mem_filter, lookup_record] at inside
    obtain ⟨listed, absent⟩ := inside
    split_ifs at absent
    exact Finset.mem_filter.mpr ⟨listed, absent⟩
  have offered := offer_offered label less current dependent s
  generalize offer label less current s dependent = after at offered ⊢
  cases offered with
  | queued new =>
    have strictly : (keys.filter (fun key => (s.record dependent (s.distanceOf current + 1)
        (label dependent :: s.pathOf current)).distance.lookup key = none)).card <
        (keys.filter (fun key => s.distance.lookup key = none)).card := by
      refine Finset.card_lt_card ((Finset.ssubset_iff_of_subset (fewer _ _)).mpr ?_)
      refine ⟨dependent, Finset.mem_filter.mpr ⟨member, new⟩, fun inside => ?_⟩
      have absent := (Finset.mem_filter.mp inside).2
      rw [lookup_record, if_pos rfl] at absent
      exact some_ne_none _ absent
    unfold remaining
    dsimp only
    rw [length_append, length_singleton]
    omega
  | kept => exact le_refl _
  | replaced => exact Nat.add_le_add_right (Finset.card_le_card (fewer _ _)) _

theorem offers_spec (order : PathOrder keys label less cost) {edges : List κ}
    (listed : ∀ key ∈ edges, key ∈ next current ∧ key ∈ keys)
    (inv : Inv next label cost keys source s trail (Left current edges)) (atLevel : AtLevel s level)
    (currentDone : Done s current) (currentAt : s.distance.lookup current = some level) :
    AtLevel (edges.foldl (offer label less current) s) level ∧
      remaining keys (edges.foldl (offer label less current) s) ≤ remaining keys s ∧
      ∃ newTrail, Inv next label cost keys source (edges.foldl (offer label less current) s) newTrail
        (Left current []) := by
  induction edges generalizing s trail with
  | nil => exact ⟨atLevel, le_refl _, trail, inv⟩
  | cons dependent rest ih =>
    obtain ⟨edge, member⟩ := listed dependent mem_cons_self
    obtain ⟨⟨levelNext, done⟩, atNext, trailNext, invNext⟩ :=
      offer_spec order inv atLevel currentDone currentAt edge member
    obtain ⟨levelAfter, fewer, trailAfter, invAfter⟩ :=
      ih (fun key later => listed key (mem_cons_of_mem dependent later)) invNext levelNext
        ((done current).mpr currentDone) atNext
    exact ⟨levelAfter, fewer.trans (offer_remaining member), trailAfter, invAfter⟩

def Between (next : κ → List κ) (label : κ → ν) (cost : List κ → γ) (keys : Finset κ)
    (source : κ → Prop) (s : Search κ ν) : Prop :=
  (∃ level, AtLevel s level) ∧ ∃ trail, Inv next label cost keys source s trail (fun _ _ => False)

theorem AtLevel.pop {tail : List κ} (atLevel : AtLevel s level)
    (queue : s.queue = current :: tail) :
    (∃ newLevel, AtLevel { s with queue := tail } newLevel ∧
      s.distance.lookup current = some newLevel) ∧
      ∀ key, Done { s with queue := tail } key ↔ Done s key ∨ key = current := by
  have nodup := atLevel.nodup
  rw [queue] at nodup
  obtain ⟨unlisted, nodupTail⟩ := nodup_cons.mp nodup
  have currentSeen : (s.distance.lookup current).isSome = true :=
    atLevel.isSome_of_queued (queue ▸ mem_cons_self)
  have done : ∀ key, Done { s with queue := tail } key ↔ Done s key ∨ key = current := by
    intro key
    unfold Done
    rw [queue]
    constructor
    · rintro ⟨seen, off⟩
      by_cases same : key = current
      · exact .inr same
      · exact .inl ⟨seen, fun listed => (mem_cons.mp listed).elim same off⟩
    · rintro (⟨seen, off⟩ | rfl)
      · exact ⟨seen, fun listed => off (mem_cons_of_mem current listed)⟩
      · exact ⟨currentSeen, unlisted⟩
  refine ⟨?_, done⟩
  have settled {reached : ℕ} (above : level ≤ reached)
      (here : s.distance.lookup current = some reached) (key : κ) (distance : ℕ)
      (isDone : Done { s with queue := tail } key) (found : s.distance.lookup key = some distance) :
      distance ≤ reached := by
    rcases (done key).mp isDone with before | rfl
    · exact (atLevel.done key distance before found).trans above
    · exact (Option.some.inj (found.symm.trans here)).le
  obtain ⟨lower, upper, split, low, high⟩ := atLevel.split
  rw [queue] at split
  cases lower with
  | cons first lower =>
    obtain ⟨rfl, rest⟩ := List.cons.inj split
    have here := low current mem_cons_self
    exact ⟨level, ⟨⟨lower, upper, rest, fun key inLower => low key (mem_cons_of_mem _ inLower),
      high⟩, nodupTail, settled (le_refl _) here⟩, here⟩
  | nil =>
    rw [nil_append] at split
    have here := high current (split ▸ mem_cons_self)
    refine ⟨level + 1, ⟨⟨tail, [], (append_nil tail).symm, ?_, nofun⟩, nodupTail,
      settled (Nat.le_succ level) here⟩, here⟩
    exact fun key listed => high key (split ▸ mem_cons_of_mem current listed)

theorem turn_spec (order : PathOrder keys label less cost)
    (closed : ∀ c ∈ keys, ∀ key ∈ next c, key ∈ keys) {after : Search κ ν}
    (between : Between next label cost keys source s) (goes : turn next label less s = .inl after) :
    Between next label cost keys source after ∧ remaining keys after < remaining keys s := by
  obtain ⟨⟨level, atLevel⟩, trail, inv⟩ := between
  unfold turn at goes
  split at goes
  · cases goes
  · rename_i current tail queue
    cases goes
    obtain ⟨⟨newLevel, popped, here⟩, done⟩ := atLevel.pop queue
    have member := (inv.inside current (isSome_of_eq_some here)).1
    have started : Inv next label cost keys source { s with queue := tail } trail
        (Left current (next current)) :=
      { inv with
        parent := fun key distance found => by
          obtain ⟨c, isDone, rest⟩ := inv.parent key distance found
          exact ⟨c, (done c).mpr (.inl isDone), rest⟩
        offered := fun c distance isDone found key listed => by
          rcases (done c).mp isDone with before | rfl
          · exact .inr ((inv.offered c distance before found key listed).resolve_left id)
          · exact .inl ⟨rfl, listed⟩ }
    obtain ⟨levelAfter, fewer, trailAfter, invAfter⟩ := offers_spec order
      (fun key listed => ⟨listed, closed current member key listed⟩) started popped
      ((done current).mpr (.inr rfl)) here
    refine ⟨⟨⟨newLevel, levelAfter⟩, trailAfter, ?_⟩, fewer.trans_lt ?_⟩
    · exact
        { invAfter with
          offered := fun c distance isDone found key listed =>
            .inr ((invAfter.offered c distance isDone found key listed).resolve_left
              (fun left => absurd left.2 not_mem_nil)) }
    · unfold remaining
      rw [queue]
      exact Nat.add_lt_add_left (Nat.lt_succ_self _) _

variable (next label cost source) in
/-- A search that is through: the keys with a walk to a source, each with its distance and its least
shortest path. -/
structure Result (s : Search κ ν) (trail : κ → List κ) : Prop where
  walk : ∀ key distance, s.distance.lookup key = some distance →
    Walk next source key (trail key) ∧ (trail key).length = distance + 1 ∧
      s.pathOf key = (trail key).map label
  least : ∀ key path, Walk next source key path → ∃ distance,
    s.distance.lookup key = some distance ∧ distance + 1 ≤ path.length ∧
      (distance + 1 = path.length → cost (trail key) ≤ cost path)

omit [DecidableEq κ] in
theorem Walk.mono (edges : ∀ c key, key ∈ next c → key ∈ next' c)
    {path : List κ} (walk : Walk next source key path) : Walk next' source key path := by
  induction walk with
  | source here => exact .source here
  | step edge _ ih => exact .step (edges _ _ edge) ih

theorem Result.distance_le {s' : Search κ ν} {trail' : κ → List κ}
    (edges : ∀ c key, key ∈ next c → key ∈ next' c) (result : Result next label cost source s trail)
    (result' : Result next' label cost source s' trail') {distance : ℕ}
    (found : s.distance.lookup key = some distance) :
    ∃ distance', s'.distance.lookup key = some distance' ∧ distance' ≤ distance ∧
      (distance' = distance → cost (trail' key) ≤ cost (trail key)) := by
  obtain ⟨walk, length, -⟩ := result.walk key distance found
  obtain ⟨distance', found', le, least⟩ := result'.least key _ (walk.mono edges)
  rw [length] at le least
  exact ⟨distance', found', Nat.le_of_succ_le_succ le, fun same => least (congrArg Nat.succ same)⟩

theorem Result.unique {s' : Search κ ν} {trail' : κ → List κ}
    (edges : ∀ c key, key ∈ next c ↔ key ∈ next' c) (result : Result next label cost source s trail)
    (result' : Result next' label cost source s' trail')
    (apart : ∀ key a b, Walk next source key a → Walk next source key b → cost a = cost b → a = b) :
    (∀ key, s.distance.lookup key = s'.distance.lookup key) ∧
      ∀ key, (s.distance.lookup key).isSome = true → s.pathOf key = s'.pathOf key := by
  have forth (c key : κ) := (edges c key).mp
  have back (c key : κ) := (edges c key).mpr
  have agree {key : κ} {distance : ℕ} (found : s.distance.lookup key = some distance) :
      s'.distance.lookup key = some distance ∧ s.pathOf key = s'.pathOf key := by
    obtain ⟨distance', found', le, least⟩ := result.distance_le forth result' found
    obtain ⟨again, foundAgain, ge, leastAgain⟩ := result'.distance_le back result found'
    have same : again = distance := Option.some.inj (foundAgain.symm.trans found)
    have equal : distance' = distance := by omega
    subst equal
    refine ⟨found', ?_⟩
    obtain ⟨walk, -, path⟩ := result.walk key distance' found
    obtain ⟨walk', -, path'⟩ := result'.walk key distance' found'
    rw [path, path', apart key _ _ walk (walk'.mono back) (le_antisymm (leastAgain same) (least rfl))]
  constructor
  · intro key
    cases found : s.distance.lookup key with
    | some distance => exact (agree found).1.symm
    | none =>
      cases found' : s'.distance.lookup key with
      | none => rfl
      | some distance' =>
        obtain ⟨distance, seen, -⟩ := result'.distance_le back result found'
        exact absurd (found.symm.trans seen) (some_ne_none distance).symm
  · intro key seen
    obtain ⟨distance, found⟩ := isSome_iff_exists.mp seen
    exact (agree found).2

theorem Inv.result (order : PathOrder keys label less cost)
    (inv : Inv next label cost keys source s trail (fun _ _ => False)) (through : s.queue = []) :
    Result next label cost source s trail := by
  have done (key : κ) (seen : (s.distance.lookup key).isSome = true) : Done s key :=
    ⟨seen, through ▸ not_mem_nil⟩
  constructor
  · intro key distance found
    rw [← and_assoc]
    refine ⟨?_, inv.path key (isSome_of_eq_some found)⟩
    induction distance generalizing key with
    | zero =>
      have isSource := (inv.zero key).mp found
      rw [inv.start key isSource]
      exact ⟨.source isSource, rfl⟩
    | succ distance ih =>
      obtain ⟨c, -, foundC, edge, same⟩ := inv.parent key distance found
      obtain ⟨walk, length⟩ := ih c foundC
      rw [same]
      exact ⟨.step edge walk, congrArg Nat.succ length⟩
  · intro key path walk
    induction walk with
    | source isSource =>
      rename_i key
      refine ⟨0, (inv.zero key).mpr isSource, le_refl _, fun _ => ?_⟩
      rw [inv.start key isSource]
    | step edge _ ih =>
      rename_i key c path _
      obtain ⟨distanceC, foundC, boundC, leastC⟩ := ih
      obtain ⟨distance, found, bound, least⟩ :=
        (inv.offered c distanceC (done c (isSome_of_eq_some foundC)) foundC key
          edge).resolve_left id
      rw [length_cons]
      refine ⟨distance, found, by omega, fun same => ?_⟩
      exact (least (by omega)).trans (order.cons key _ _ (leastC (by omega)))

theorem search_spec (order : PathOrder keys label less cost)
    (closed : ∀ c ∈ keys, ∀ key ∈ next c, key ∈ keys) (sources : ∀ key, source key → key ∈ keys)
    (nodup : s.queue.Nodup) (queue : ∀ key, key ∈ s.queue ↔ source key)
    (distances : ∀ key distance, s.distance.lookup key = some distance ↔ source key ∧ distance = 0)
    (paths : ∀ key, source key → s.pathOf key = [label key]) :
    ∃ after trail, (∀ fuel, remaining keys s < fuel → search next label less fuel s = some after) ∧
      Result next label cost source after trail := by
  have seenSource {key : κ} (seen : (s.distance.lookup key).isSome = true) : source key := by
    obtain ⟨distance, found⟩ := isSome_iff_exists.mp seen
    exact ((distances key distance).mp found).1
  have waiting (key : κ) : ¬ Done s key := fun isDone =>
    isDone.2 ((queue key).mpr (seenSource isDone.1))
  have start : Between next label cost keys source s := by
    refine ⟨⟨0, ⟨s.queue, [], (append_nil _).symm, ?_, nofun⟩,
      nodup, fun key _ isDone => absurd isDone (waiting key)⟩, fun key => [key], ?_⟩
    · exact fun key listed => (distances key 0).mpr ⟨(queue key).mp listed, rfl⟩
    · exact
        { inside := fun key seen =>
            ⟨sources key (seenSource seen), fun x listed =>
              mem_singleton.mp listed ▸ sources key (seenSource seen)⟩
          zero := fun key => (distances key 0).trans (and_iff_left rfl)
          start := fun _ _ => rfl
          path := fun key seen => paths key (seenSource seen)
          parent := fun key distance found =>
            absurd ((distances key _).mp found).2 (Nat.succ_ne_zero distance)
          offered := fun c _ isDone => absurd isDone (waiting c) }
  obtain ⟨after, ⟨through, trail, inv⟩, ended⟩ := loop_total
    (Between next label cost keys source)
    (fun after => after.queue = [] ∧ ∃ trail, Inv next label cost keys source after trail (fun _ _ => False))
    (remaining keys)
    (fun _ _ between goes => turn_spec order closed between goes)
    (fun before after between returns => by
      unfold turn at returns
      split at returns
      · rename_i queue
        cases returns
        exact ⟨queue, between.2⟩
      · cases returns)
    s start
  exact ⟨after, trail, ended, inv.result order through⟩

end Invariant

end McpLocalHub.Foundation.BreadthFirst
