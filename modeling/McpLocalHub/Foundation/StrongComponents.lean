/- Module: Foundation/StrongComponents
   source: none (a library)
   digest: One depth-first search with low links yields the strongly connected components. -/

import McpLocalHub.Foundation.Maps
import Mathlib.Data.Finset.Card

set_option autoImplicit false

/-!
The graph is a function from a key to the list of its successors. The state of the search is in maps,
and a key that is absent from a map of numbers has the number zero there. The search is run on fuel;
`visit_spec` is a statement of total correctness.

The argument is about the stack. The keys of the calls under way (the grey ones) are on it; what
stands above a key can be reached from it, and every key on it reaches a grey one below. A key whose
low link is its own number has no edge from what stands above it to what stands below it.
-/

namespace McpLocalHub.Foundation.StrongComponents

open Maps Relation List

variable {κ : Type} [DecidableEq κ]

structure Search (κ : Type) where
  index : ℕ := 0
  indices : Map κ ℕ := ∅
  low : Map κ ℕ := ∅
  stack : List κ := []
  onStack : Map κ Bool := ∅
  components : List (List κ) := []

namespace Search

def indexOf (s : Search κ) (key : κ) : ℕ := (s.indices.lookup key).getD 0

def lowOf (s : Search κ) (key : κ) : ℕ := (s.low.lookup key).getD 0

def enter (s : Search κ) (key : κ) : Search κ where
  index := s.index + 1
  indices := s.indices.insert key s.index
  low := s.low.insert key s.index
  stack := key :: s.stack
  onStack := s.onStack.insert key true
  components := s.components

def lower (s : Search κ) (key : κ) (number : ℕ) : Search κ :=
  { s with low := s.low.insert key number }

def popTo (key : κ) : List κ → List κ × List κ
  | [] => ([], [])
  | last :: rest =>
    if last = key then ([last], rest) else (last :: (popTo key rest).1, (popTo key rest).2)

def leave (s : Search κ) (key : κ) : Search κ :=
  if s.lowOf key ≠ s.indexOf key then s
  else
    { s with
      stack := (popTo key s.stack).2
      onStack := (popTo key s.stack).1.foldl (fun flags last => flags.insert last false) s.onStack
      components := s.components ++ [(popTo key s.stack).1] }

end Search

def scan (visit : κ → Search κ → Option (Search κ)) (key : κ) :
    List κ → Search κ → Option (Search κ)
  | [], s => some s
  | next :: rest, s =>
    if (s.indices.lookup next).isNone then
      match visit next s with
      | none => none
      | some s =>
        scan visit key rest
          (if s.lowOf next < s.lowOf key then s.lower key (s.lowOf next) else s)
    else if (s.onStack.lookup next).getD false = true ∧ s.indexOf next < s.lowOf key then
      scan visit key rest (s.lower key (s.indexOf next))
    else scan visit key rest s

def visit (adjacency : κ → List κ) : ℕ → κ → Search κ → Option (Search κ)
  | 0, _, _ => none
  | fuel + 1, key, s =>
    (scan (visit adjacency fuel) key (adjacency key) (s.enter key)).map (fun s => s.leave key)

def visitAll (adjacency : κ → List κ) (fuel : ℕ) : List κ → Search κ → Option (Search κ)
  | [], s => some s
  | key :: rest, s =>
    if (s.indices.lookup key).isNone then
      match visit adjacency fuel key s with
      | none => none
      | some s => visitAll adjacency fuel rest s
    else visitAll adjacency fuel rest s

def Search.Seen (s : Search κ) (key : κ) : Prop := (s.indices.lookup key).isSome = true

instance (s : Search κ) (key : κ) : Decidable (s.Seen key) := inferInstanceAs (Decidable (Option.isSome _ = true))

theorem Search.seen_iff {s : Search κ} {key : κ} :
    s.Seen key ↔ ∃ number, s.indices.lookup key = some number := Option.isSome_iff_exists

theorem Search.isNone_iff {s : Search κ} {key : κ} :
    (s.indices.lookup key).isNone = true ↔ ¬ s.Seen key := by
  unfold Seen
  cases s.indices.lookup key <;> simp

section Enter

variable (s : Search κ) (key : κ)

theorem Search.seen_enter {x : κ} : (s.enter key).Seen x ↔ x = key ∨ s.Seen x := by
  unfold Seen enter
  by_cases same : x = key
  · subst same
    simp
  · simp [AList.lookup_insert_ne same, same]

theorem Search.indexOf_enter_self : (s.enter key).indexOf key = s.index := by
  unfold indexOf enter
  rw [AList.lookup_insert]
  rfl

theorem Search.lowOf_enter_self : (s.enter key).lowOf key = s.index := by
  unfold lowOf enter
  rw [AList.lookup_insert]
  rfl

theorem Search.indices_enter_of_ne {x : κ} (other : x ≠ key) :
    (s.enter key).indices.lookup x = s.indices.lookup x := AList.lookup_insert_ne other

theorem Search.low_enter_of_ne {x : κ} (other : x ≠ key) :
    (s.enter key).low.lookup x = s.low.lookup x := AList.lookup_insert_ne other

theorem Search.lowOf_lower_self (number : ℕ) : (s.lower key number).lowOf key = number := by
  unfold lowOf lower
  rw [AList.lookup_insert]
  rfl

end Enter

theorem Search.popTo_append {key : κ} {fresh old : List κ} (absent : key ∉ fresh) :
    popTo key (fresh ++ key :: old) = (fresh ++ [key], old) := by
  induction fresh with
  | nil => simp [popTo]
  | cons last rest ih =>
    have other : last ≠ key := fun same => absent (same ▸ mem_cons_self)
    have below : key ∉ rest := fun listed => absent (mem_cons_of_mem last listed)
    simp only [cons_append, popTo, if_neg other, ih below]

theorem lookup_lowered (keys : List κ) (flags : Map κ Bool) (x : κ) :
    ((keys.foldl (fun flags last => flags.insert last false) flags).lookup x).getD false = true ↔
      (flags.lookup x).getD false = true ∧ x ∉ keys := by
  induction keys generalizing flags with
  | nil => simp
  | cons last rest ih =>
    rw [foldl_cons, ih, mem_cons, not_or]
    by_cases same : x = last
    · subst same
      simp
    · simp [AList.lookup_insert_ne same, same]

section Invariant

variable (adjacency : κ → List κ)

def Reach : κ → κ → Prop := ReflTransGen (fun a b => b ∈ adjacency a)

structure Sound (s : Search κ) (greys : List κ) : Prop where
  below : ∀ x, s.Seen x → s.indexOf x < s.index
  ordered : s.stack.Pairwise (fun upper lower => s.indexOf lower < s.indexOf upper)
  stacked : ∀ x ∈ s.stack, s.Seen x
  flags : ∀ x, (s.onStack.lookup x).getD false = true ↔ x ∈ s.stack
  greyStacked : ∀ grey ∈ greys, grey ∈ s.stack
  closed : ∀ x, s.Seen x → x ∉ greys → ∀ y ∈ adjacency x, s.Seen y
  climbs : ∀ x ∈ s.stack, ∀ y ∈ s.stack, s.indexOf x ≤ s.indexOf y → Reach adjacency x y
  returns : ∀ x ∈ s.stack, ∃ grey ∈ greys, s.indexOf grey ≤ s.indexOf x ∧ Reach adjacency x grey
  finished : ∀ x, s.Seen x ∧ x ∉ s.stack ↔ ∃ component ∈ s.components, x ∈ component
  strong : ∀ component ∈ s.components, component ≠ [] ∧ ∀ x ∈ component, ∀ y,
    y ∈ component ↔ Reach adjacency x y ∧ Reach adjacency y x
  apart : s.components.flatten.Nodup

structure Visited (greys : List κ) (key : κ) (old s : Search κ) : Prop where
  sound : Sound adjacency s greys
  grows : ∀ x, old.Seen x → s.indices.lookup x = old.indices.lookup x ∧
    s.low.lookup x = old.low.lookup x
  seen : s.Seen key
  later : old.index ≤ s.indexOf key
  stack : ∃ fresh, s.stack = fresh ++ old.stack ∧ ∀ x ∈ fresh, ¬ old.Seen x
  low : s.lowOf key = s.indexOf key ∨
    ∃ z ∈ old.stack, s.indexOf z = s.lowOf key ∧ Reach adjacency key z
  crossing : ∀ x ∈ s.stack, ¬ old.Seen x → ∀ y ∈ adjacency x, y ∈ old.stack →
    s.lowOf key ≤ s.indexOf y
  source : ∀ x, s.Seen x → ¬ old.Seen x → Reach adjacency key x

/-- The loop over the successors of a key, with the rest of them still to come. -/
structure Scanning (greys : List κ) (key : κ) (old s : Search κ) (rest : List κ) (bound : ℕ) :
    Prop where
  unseen : ¬ old.Seen key
  sound : Sound adjacency s (key :: greys)
  grows : ∀ x, old.Seen x → s.indices.lookup x = old.indices.lookup x ∧
    s.low.lookup x = old.low.lookup x
  own : s.indices.lookup key = some old.index
  stack : ∃ fresh, s.stack = fresh ++ key :: old.stack ∧ ∀ x ∈ fresh, ¬ old.Seen x
  lowLe : s.lowOf key ≤ s.indexOf key
  lowHit : ∃ z ∈ s.stack, s.indexOf z = s.lowOf key ∧ Reach adjacency key z
  crossing : ∀ x ∈ s.stack, ¬ old.Seen x → ∀ y ∈ adjacency x, y ∈ old.stack →
    x = key ∧ y ∈ rest ∨ bound ≤ s.indexOf y
  scanned : ∀ y ∈ adjacency key, y ∈ rest ∨ s.Seen y
  source : ∀ x, s.Seen x → ¬ old.Seen x → Reach adjacency key x

variable {adjacency} {s old : Search κ} {greys : List κ} {key : κ}

theorem Sound.nodup (sound : Sound adjacency s greys) : s.stack.Nodup :=
  sound.ordered.imp (fun less same => absurd (same ▸ less) (lt_irrefl _))

theorem Sound.lower (sound : Sound adjacency s greys) (key : κ) (number : ℕ) :
    Sound adjacency (s.lower key number) greys := { sound with }

theorem indexOf_congr {x : κ} (same : s.indices.lookup x = old.indices.lookup x) :
    s.indexOf x = old.indexOf x := congrArg (Option.getD · 0) same

theorem indexOf_enter_seen (fresh : ¬ s.Seen key) {x : κ} (seen : s.Seen x) :
    (s.enter key).indexOf x = s.indexOf x :=
  indexOf_congr (s.indices_enter_of_ne key (fun same => fresh (same ▸ seen)))

theorem Sound.enter (sound : Sound adjacency s greys) (fresh : ¬ s.Seen key)
    (reached : ∀ grey ∈ greys, Reach adjacency grey key) :
    Sound adjacency (s.enter key) (key :: greys) := by
  have kept {x : κ} (seen : s.Seen x) := indexOf_enter_seen fresh seen
  have own := s.indexOf_enter_self key
  have under (x : κ) (listed : x ∈ s.stack) : Reach adjacency x key := by
    obtain ⟨grey, isGrey, -, path⟩ := sound.returns x listed
    exact path.trans (reached grey isGrey)
  have unlisted : key ∉ s.stack := fun listed => fresh (sound.stacked key listed)
  constructor
  · intro x seen
    rcases (s.seen_enter key).mp seen with rfl | earlier
    · rw [own]
      exact Nat.lt_succ_self _
    · rw [kept earlier]
      exact Nat.lt_succ_of_lt (sound.below x earlier)
  · refine pairwise_cons.mpr ⟨fun x listed => ?_, ?_⟩
    · rw [own, kept (sound.stacked x listed)]
      exact sound.below x (sound.stacked x listed)
    · refine sound.ordered.imp_of_mem (fun {a b} first second less => ?_)
      rw [kept (sound.stacked a first), kept (sound.stacked b second)]
      exact less
  · exact forall_mem_cons.mpr ⟨(s.seen_enter key).mpr (.inl rfl),
      fun x earlier => (s.seen_enter key).mpr (.inr (sound.stacked x earlier))⟩
  · intro x
    by_cases same : x = key
    · subst same
      simp [Search.enter]
    · have flag := sound.flags x
      simp only [Search.enter, AList.lookup_insert_ne same, mem_cons, same, false_or]
      exact flag
  · exact forall_mem_cons.mpr ⟨mem_cons_self,
      fun grey earlier => mem_cons_of_mem key (sound.greyStacked grey earlier)⟩
  · intro x seen white y edge
    obtain ⟨other, notGrey⟩ := ne_and_not_mem_of_not_mem_cons white
    have earlier := ((s.seen_enter key).mp seen).resolve_left other
    exact (s.seen_enter key).mpr (.inr (sound.closed x earlier notGrey y edge))
  · intro x listedX y listedY less
    rcases mem_cons.mp listedX with rfl | earlierX
    · rcases mem_cons.mp listedY with rfl | earlierY
      · exact .refl
      · rw [own, kept (sound.stacked y earlierY)] at less
        exact absurd (sound.below y (sound.stacked y earlierY)) (not_lt.mpr less)
    · rcases mem_cons.mp listedY with rfl | earlierY
      · exact under x earlierX
      · rw [kept (sound.stacked x earlierX), kept (sound.stacked y earlierY)] at less
        exact sound.climbs x earlierX y earlierY less
  · intro x listed
    rcases mem_cons.mp listed with rfl | earlier
    · exact ⟨x, mem_cons_self, le_refl _, .refl⟩
    · obtain ⟨grey, isGrey, less, path⟩ := sound.returns x earlier
      refine ⟨grey, mem_cons_of_mem key isGrey, ?_, path⟩
      rw [kept (sound.stacked x earlier), kept (sound.stacked grey (sound.greyStacked grey isGrey))]
      exact less
  · intro x
    rw [s.seen_enter key]
    constructor
    · rintro ⟨rfl | seen, unlistedX⟩
      · exact absurd mem_cons_self unlistedX
      · exact (sound.finished x).mp ⟨seen, not_mem_of_not_mem_cons unlistedX⟩
    · intro inside
      obtain ⟨seen, unlistedX⟩ := (sound.finished x).mpr inside
      exact ⟨.inr seen, not_mem_cons_of_ne_of_not_mem (fun same => fresh (same ▸ seen)) unlistedX⟩
  · exact sound.strong
  · exact sound.apart

theorem Scanning.start (sound : Sound adjacency s greys) (fresh : ¬ s.Seen key)
    (reached : ∀ grey ∈ greys, Reach adjacency grey key) :
    Scanning adjacency greys key s (s.enter key) (adjacency key) ((s.enter key).lowOf key) where
  unseen := fresh
  sound := sound.enter fresh reached
  grows := fun x seen =>
    have other : x ≠ key := fun same => fresh (same ▸ seen)
    ⟨s.indices_enter_of_ne key other, s.low_enter_of_ne key other⟩
  own := AList.lookup_insert s.indices
  stack := ⟨[], rfl, nofun⟩
  lowLe := le_of_eq ((s.lowOf_enter_self key).trans (s.indexOf_enter_self key).symm)
  lowHit := ⟨key, mem_cons_self,
    (s.indexOf_enter_self key).trans (s.lowOf_enter_self key).symm, .refl⟩
  crossing := by
    intro x listed unseen y edge _
    rcases mem_cons.mp listed with rfl | earlier
    · exact .inl ⟨rfl, edge⟩
    · exact absurd (sound.stacked x earlier) unseen
  scanned := fun _ edge => .inl edge
  source := by
    intro x seen unseen
    rcases (s.seen_enter key).mp seen with rfl | earlier
    · exact .refl
    · exact absurd earlier unseen

variable {next : κ} {rest : List κ} {bound : ℕ}

theorem Scanning.below_key (scanning : Scanning adjacency greys key old s rest bound) :
    ∀ y ∈ old.stack, y ∈ s.stack ∧ s.indexOf y < s.indexOf key := by
  obtain ⟨fresh, stack, -⟩ := scanning.stack
  have ordered := scanning.sound.ordered
  rw [stack] at ordered
  intro y listed
  refine ⟨?_, ?_⟩
  · rw [stack]
    exact mem_append_right fresh (mem_cons_of_mem key listed)
  · exact (pairwise_cons.mp (pairwise_append.mp ordered).2.1).1 y listed

theorem Scanning.met (scanning : Scanning adjacency greys key old s (next :: rest) bound)
    (seen : s.Seen next) {tighter : ℕ} (less : tighter ≤ bound)
    (number : next ∈ old.stack → tighter ≤ s.indexOf next) :
    Scanning adjacency greys key old s rest tighter :=
  { scanning with
    crossing := by
      intro x listed unseen y edge below
      rcases scanning.crossing x listed unseen y edge below with ⟨same, member⟩ | held
      · rcases mem_cons.mp member with rfl | later
        · exact .inr (number below)
        · exact .inl ⟨same, later⟩
      · exact .inr (less.trans held)
    scanned := by
      intro y edge
      rcases scanning.scanned y edge with member | before
      · rcases mem_cons.mp member with rfl | later
        · exact .inr seen
        · exact .inl later
      · exact .inr before }

theorem Scanning.lower (scanning : Scanning adjacency greys key old s rest bound)
    (less : bound ≤ s.indexOf key)
    (hit : ∃ z ∈ s.stack, s.indexOf z = bound ∧ Reach adjacency key z) :
    Scanning adjacency greys key old (s.lower key bound) rest ((s.lower key bound).lowOf key) := by
  have low := s.lowOf_lower_self key bound
  rw [low]
  exact
    { scanning with
      sound := scanning.sound.lower key bound
      grows := fun x seen =>
        have other : x ≠ key := fun same => scanning.unseen (same ▸ seen)
        ⟨(scanning.grows x seen).1, (AList.lookup_insert_ne other).trans (scanning.grows x seen).2⟩
      lowLe := low.symm ▸ less
      lowHit := low.symm ▸ hit }

theorem Scanning.called {called : Search κ}
    (scanning : Scanning adjacency greys key old s (next :: rest) (s.lowOf key))
    (edge : next ∈ adjacency key) (new : ¬ s.Seen next)
    (visited : Visited adjacency (key :: greys) next s called) :
    Scanning adjacency greys key old called rest (min (called.lowOf key) (called.lowOf next)) ∧
      called.lowOf key = s.lowOf key ∧ called.indexOf key = s.indexOf key := by
  have ownSeen : s.Seen key := Search.seen_iff.mpr ⟨_, scanning.own⟩
  have lowKept : called.lowOf key = s.lowOf key :=
    congrArg (Option.getD · 0) (visited.grows key ownSeen).2
  have kept {x : κ} (seen : s.Seen x) : called.indexOf x = s.indexOf x :=
    indexOf_congr (visited.grows x seen).1
  have oldSeen {x : κ} (seen : old.Seen x) : s.Seen x := by
    unfold Search.Seen
    rw [(scanning.grows x seen).1]
    exact seen
  obtain ⟨fresh, stack, unseenFresh⟩ := scanning.stack
  obtain ⟨above, grown, unseenAbove⟩ := visited.stack
  refine ⟨?_, lowKept, kept ownSeen⟩
  constructor
  · exact scanning.unseen
  · exact visited.sound
  · intro x seen
    obtain ⟨sameIndex, sameLow⟩ := visited.grows x (oldSeen seen)
    exact ⟨sameIndex.trans (scanning.grows x seen).1, sameLow.trans (scanning.grows x seen).2⟩
  · exact (visited.grows key ownSeen).1.trans scanning.own
  · refine ⟨above ++ fresh, by rw [grown, stack, append_assoc], fun x listed => ?_⟩
    rcases mem_append.mp listed with upper | lower
    · exact fun seen => unseenAbove x upper (oldSeen seen)
    · exact unseenFresh x lower
  · rw [lowKept, kept ownSeen]
    exact scanning.lowLe
  · obtain ⟨z, listed, number, path⟩ := scanning.lowHit
    refine ⟨z, grown ▸ mem_append_right above listed, ?_, path⟩
    rw [kept (scanning.sound.stacked z listed), lowKept]
    exact number
  · intro x listed unseen y follows below
    have belowS := (scanning.below_key y below).1
    have keptY := kept (scanning.sound.stacked y belowS)
    by_cases before : s.Seen x
    · have listedS : x ∈ s.stack := by
        rw [grown] at listed
        exact (mem_append.mp listed).resolve_left (fun upper => unseenAbove x upper before)
      rcases scanning.crossing x listedS unseen y follows below with ⟨same, member⟩ | held
      · rcases mem_cons.mp member with rfl | later
        · exact absurd (scanning.sound.stacked y belowS) new
        · exact .inl ⟨same, later⟩
      · refine .inr ((min_le_left _ _).trans ?_)
        rw [lowKept, keptY]
        exact held
    · exact .inr ((min_le_right _ _).trans (visited.crossing x listed before y follows belowS))
  · intro y follows
    rcases scanning.scanned y follows with member | before
    · rcases mem_cons.mp member with rfl | later
      · exact .inr visited.seen
      · exact .inl later
    · refine .inr ?_
      unfold Search.Seen
      rw [(visited.grows y before).1]
      exact before
  · intro x seen unseen
    by_cases before : s.Seen x
    · exact scanning.source x before unseen
    · exact .head edge (visited.source x seen before)

theorem Scanning.top (scanning : Scanning adjacency greys key old s rest bound) :
    ∃ top, s.stack = top ++ old.stack ∧ Search.popTo key s.stack = (top, old.stack) ∧ key ∈ top ∧
      ∀ x ∈ top, ¬ old.Seen x ∧ s.indexOf key ≤ s.indexOf x := by
  obtain ⟨fresh, stack, unseen⟩ := scanning.stack
  have ordered := scanning.sound.ordered
  rw [stack] at ordered
  have above (x : κ) (upper : x ∈ fresh) : s.indexOf key < s.indexOf x :=
    (pairwise_append.mp ordered).2.2 x upper key mem_cons_self
  refine ⟨fresh ++ [key], stack.trans (append_cons _ _ _), ?_, by simp, fun x listed => ?_⟩
  · rw [stack]
    exact Search.popTo_append (fun upper => lt_irrefl _ (above key upper))
  · rcases mem_append.mp listed with upper | own
    · exact ⟨unseen x upper, (above x upper).le⟩
    · rw [mem_singleton.mp own]
      exact ⟨scanning.unseen, le_refl _⟩

theorem Scanning.closed (scanning : Scanning adjacency greys key old s [] bound) (x : κ)
    (seen : s.Seen x) (white : x ∉ greys) : ∀ y ∈ adjacency x, s.Seen y := by
  intro y edge
  by_cases same : x = key
  · subst same
    exact (scanning.scanned y edge).resolve_left not_mem_nil
  · refine scanning.sound.closed x seen (fun isGrey => ?_) y edge
    exact (mem_cons.mp isGrey).elim same white

theorem Scanning.crossed (scanning : Scanning adjacency greys key old s [] bound) :
    ∀ x ∈ s.stack, ¬ old.Seen x → ∀ y ∈ adjacency x, y ∈ old.stack → bound ≤ s.indexOf y := by
  intro x listed unseen y edge below
  exact (scanning.crossing x listed unseen y edge below).resolve_left
    (fun pending => absurd pending.2 not_mem_nil)

theorem Scanning.stays (scanning : Scanning adjacency greys key old s [] (s.lowOf key))
    (linked : s.lowOf key ≠ s.indexOf key) : Visited adjacency greys key old s := by
  have sound := scanning.sound
  have ownIndex : s.indexOf key = old.index := by
    unfold Search.indexOf
    rw [scanning.own]
    rfl
  have under : s.lowOf key < s.indexOf key := lt_of_le_of_ne scanning.lowLe linked
  obtain ⟨top, stack, -, -, unseen⟩ := scanning.top
  obtain ⟨z, listed, number, path⟩ := scanning.lowHit
  have zUnder : s.indexOf z < s.indexOf key := number ▸ under
  have greyUnder : ∀ x, s.indexOf x < s.indexOf key → x ∈ key :: greys → x ∈ greys := by
    intro x less isGrey
    rcases mem_cons.mp isGrey with rfl | earlier
    · exact absurd less (lt_irrefl _)
    · exact earlier
  constructor
  · exact
      { sound with
        greyStacked := fun grey isGrey => sound.greyStacked grey (mem_cons_of_mem key isGrey)
        closed := scanning.closed
        returns := by
          intro x listedX
          obtain ⟨grey, isGrey, less, back⟩ := sound.returns x listedX
          rcases mem_cons.mp isGrey with rfl | earlier
          · obtain ⟨low, isLow, lowLess, lowBack⟩ := sound.returns z listed
            exact ⟨low, greyUnder low (lowLess.trans_lt zUnder) isLow,
              (lowLess.trans zUnder.le).trans less, back.trans (path.trans lowBack)⟩
          · exact ⟨grey, earlier, less, back⟩ }
  · exact scanning.grows
  · exact Search.seen_iff.mpr ⟨_, scanning.own⟩
  · exact ownIndex.ge
  · exact ⟨top, stack, fun x upper => (unseen x upper).1⟩
  · refine .inr ⟨z, ?_, number, path⟩
    rw [stack] at listed
    exact (mem_append.mp listed).resolve_left (fun upper => zUnder.not_ge (unseen z upper).2)
  · exact scanning.crossed
  · exact scanning.source

section

variable (scanning : Scanning adjacency greys key old s [] (s.lowOf key))
  (before : Sound adjacency old greys) (reached : ∀ grey ∈ greys, Reach adjacency grey key)

include scanning before reached

theorem Scanning.strong
    (root : s.lowOf key = s.indexOf key) {top : List κ} (stack : s.stack = top ++ old.stack)
    (own : key ∈ top) (unseen : ∀ x ∈ top, ¬ old.Seen x ∧ s.indexOf key ≤ s.indexOf x) :
    ∀ x ∈ top, ∀ y, y ∈ top ↔ Reach adjacency x y ∧ Reach adjacency y x := by
  have sound := scanning.sound
  have inStack (x) (member : x ∈ top) : x ∈ s.stack := by
    rw [stack]
    exact mem_append_left _ member
  have keyStacked := inStack key own
  have down (x) (member : x ∈ top) : Reach adjacency key x :=
    sound.climbs key keyStacked x (inStack x member) (unseen x member).2
  have up (x) (member : x ∈ top) : Reach adjacency x key := by
    obtain ⟨grey, isGrey, -, path⟩ := sound.returns x (inStack x member)
    rcases mem_cons.mp isGrey with rfl | earlier
    · exact path
    · exact path.trans (reached grey earlier)
  have inside (y) (path : Reach adjacency key y) : Reach adjacency y key → y ∈ top := by
    induction path with
    | refl => exact fun _ => own
    | tail path edge ih =>
      rename_i x y
      intro back
      have member := ih (.head edge back)
      have white : x ∉ greys := fun isGrey =>
        (unseen x member).1 (before.stacked x (before.greyStacked x isGrey))
      have seen := scanning.closed x (sound.stacked x (inStack x member)) white y edge
      by_cases listed : y ∈ s.stack
      · rw [stack] at listed
        refine (mem_append.mp listed).resolve_right (fun below => ?_)
        have held := scanning.crossed x (inStack x member) (unseen x member).1 y edge below
        rw [root] at held
        exact absurd (scanning.below_key y below).2 (not_lt.mpr held)
      · obtain ⟨component, isComponent, inComponent⟩ := (sound.finished y).mp ⟨seen, listed⟩
        have same := ((sound.strong component isComponent).2 y inComponent key).mpr
          ⟨back, path.tail edge⟩
        exact absurd keyStacked ((sound.finished key).mpr ⟨component, isComponent, same⟩).2
  intro x memberX y
  constructor
  · exact fun memberY => ⟨(up x memberX).trans (down y memberY), (up y memberY).trans (down x memberX)⟩
  · exact fun both => inside y ((down x memberX).trans both.1) (both.2.trans (up x memberX))

theorem Scanning.pops
    (root : s.lowOf key = s.indexOf key) : Visited adjacency greys key old (s.leave key) := by
  have sound := scanning.sound
  obtain ⟨top, stack, popped, own, unseen⟩ := scanning.top
  have left : s.leave key =
      { s with
        stack := old.stack
        onStack := top.foldl (fun flags last => flags.insert last false) s.onStack
        components := s.components ++ [top] } := by
    unfold Search.leave
    rw [if_neg (fun differs => differs root), popped]
  have split (x : κ) : x ∈ s.stack ↔ x ∈ top ∨ x ∈ old.stack := by rw [stack, mem_append]
  have apart (x : κ) (upper : x ∈ top) : x ∉ old.stack :=
    fun below => (unseen x upper).1 (before.stacked x below)
  rw [left]
  constructor
  · constructor
    · exact sound.below
    · have ordered := sound.ordered
      rw [stack] at ordered
      exact (pairwise_append.mp ordered).2.1
    · exact fun x listed => sound.stacked x ((split x).mpr (.inr listed))
    · intro x
      rw [lookup_lowered, sound.flags x, split x]
      constructor
      · exact fun both => both.1.resolve_left both.2
      · exact fun below => ⟨.inr below, fun upper => apart x upper below⟩
    · exact before.greyStacked
    · exact scanning.closed
    · exact fun x listedX y listedY less =>
        sound.climbs x ((split x).mpr (.inr listedX)) y ((split y).mpr (.inr listedY)) less
    · intro x listed
      obtain ⟨grey, isGrey, less, path⟩ := sound.returns x ((split x).mpr (.inr listed))
      rcases mem_cons.mp isGrey with rfl | earlier
      · exact absurd (scanning.below_key x listed).2 (not_lt.mpr less)
      · exact ⟨grey, earlier, less, path⟩
    · intro x
      constructor
      · rintro ⟨seen, unlisted⟩
        by_cases upper : x ∈ top
        · exact ⟨_, mem_append_right _ (mem_singleton.mpr rfl), upper⟩
        · have off : x ∉ s.stack := fun listed => ((split x).mp listed).elim upper unlisted
          obtain ⟨component, isComponent, member⟩ := (sound.finished x).mp ⟨seen, off⟩
          exact ⟨component, mem_append_left _ isComponent, member⟩
      · rintro ⟨component, isComponent, member⟩
        rcases mem_append.mp isComponent with earlier | own
        · obtain ⟨seen, off⟩ := (sound.finished x).mpr ⟨component, earlier, member⟩
          exact ⟨seen, fun below => off ((split x).mpr (.inr below))⟩
        · rw [mem_singleton.mp own] at member
          exact ⟨sound.stacked x ((split x).mpr (.inl member)), apart x member⟩
    · exact forall_mem_append.mpr ⟨sound.strong, forall_mem_singleton.mpr
        ⟨ne_nil_of_mem own, scanning.strong before reached root stack own unseen⟩⟩
    · rw [flatten_append, flatten_singleton]
      refine nodup_append.mpr ⟨sound.apart, ?_, ?_⟩
      · have nodup := sound.nodup
        rw [stack] at nodup
        exact (nodup_append.mp nodup).1
      · rintro x earlier y upper rfl
        obtain ⟨component, isComponent, member⟩ := mem_flatten.mp earlier
        exact ((sound.finished x).mpr ⟨component, isComponent, member⟩).2 ((split x).mpr (.inl upper))
  · exact scanning.grows
  · exact Search.seen_iff.mpr ⟨_, scanning.own⟩
  · unfold Search.indexOf
    rw [scanning.own]
    exact le_refl _
  · exact ⟨[], rfl, nofun⟩
  · exact .inl root
  · exact fun x listed unseenX => absurd (before.stacked x listed) unseenX
  · exact scanning.source

theorem Scanning.leave : Visited adjacency greys key old (s.leave key) := by
  by_cases root : s.lowOf key = s.indexOf key
  · exact scanning.pops before reached root
  · have stays : s.leave key = s := if_pos root
    rw [stays]
    exact scanning.stays root

end

end Invariant

section Total

variable {adjacency : κ → List κ} {universe_ : Finset κ}

def unseen (universe_ : Finset κ) (s : Search κ) : ℕ :=
  (universe_.filter (fun key => ¬ s.Seen key)).card

variable {s : Search κ} {key : κ} {greys : List κ} {fuel : ℕ}

theorem unseen_mono {after : Search κ} (grows : ∀ x, s.Seen x → after.Seen x) :
    unseen universe_ after ≤ unseen universe_ s := by
  refine Finset.card_le_card (fun x member => ?_)
  rw [Finset.mem_filter] at member ⊢
  exact ⟨member.1, fun seen => member.2 (grows x seen)⟩

theorem unseen_enter (member : key ∈ universe_) (fresh : ¬ s.Seen key) :
    unseen universe_ (s.enter key) < unseen universe_ s := by
  refine Finset.card_lt_card (Finset.ssubset_iff_of_subset ?_ |>.mpr ?_)
  · intro x inside
    rw [Finset.mem_filter] at inside ⊢
    exact ⟨inside.1, fun seen => inside.2 ((s.seen_enter key).mpr (.inr seen))⟩
  · refine ⟨key, Finset.mem_filter.mpr ⟨member, fresh⟩, fun inside => ?_⟩
    exact (Finset.mem_filter.mp inside).2 ((s.seen_enter key).mpr (.inl rfl))

theorem Visited.seen_of_seen {old : Search κ}
    (visited : Visited adjacency greys key old s) {x : κ} (seen : old.Seen x) : s.Seen x := by
  unfold Search.Seen
  rw [(visited.grows x seen).1]
  exact seen

theorem scan_spec {call : κ → Search κ → Option (Search κ)}
    {old : Search κ} {limit : ℕ} (reached : ∀ grey ∈ greys, Reach adjacency grey key)
    (inside : ∀ next ∈ adjacency key, next ∈ universe_)
    (calls : ∀ next s, next ∈ universe_ → ¬ s.Seen next → Sound adjacency s (key :: greys) →
      (∀ grey ∈ key :: greys, Reach adjacency grey next) → unseen universe_ s ≤ limit →
      ∃ after, call next s = some after ∧ Visited adjacency (key :: greys) next s after)
    {rest : List κ} (edges : ∀ next ∈ rest, next ∈ adjacency key)
    (scanning : Scanning adjacency greys key old s rest (s.lowOf key))
    (enough : unseen universe_ s ≤ limit) :
    ∃ after, scan call key rest s = some after ∧
      Scanning adjacency greys key old after [] (after.lowOf key) := by
  induction rest generalizing s with
  | nil => exact ⟨s, rfl, scanning⟩
  | cons next rest ih =>
    have edge := edges next mem_cons_self
    have edgesRest := fun other listed => edges other (mem_cons_of_mem next listed)
    unfold scan
    by_cases fresh : (s.indices.lookup next).isNone = true
    · have new := Search.isNone_iff.mp fresh
      have greyReach : ∀ grey ∈ key :: greys, Reach adjacency grey next := by
        refine forall_mem_cons.mpr ⟨.single edge, ?_⟩
        exact fun grey earlier => (reached grey earlier).tail edge
      obtain ⟨called, answered, visited⟩ :=
        calls next s (inside next edge) new scanning.sound greyReach enough
      obtain ⟨resumed, lowKept, indexKept⟩ := scanning.called edge new visited
      have fewer : unseen universe_ called ≤ limit :=
        (unseen_mono (fun x => visited.seen_of_seen)).trans enough
      rw [answered]
      dsimp only
      split_ifs with less
      · refine ih edgesRest ?_ fewer
        rw [min_eq_right less.le] at resumed
        refine resumed.lower ?_ ?_
        · rw [indexKept]
          exact less.le.trans (lowKept ▸ scanning.lowLe)
        · rcases visited.low with own | ⟨z, listed, number, path⟩
          · have ownSeen : s.Seen key := Search.seen_iff.mpr ⟨_, scanning.own⟩
            have low := scanning.lowLe.trans_lt (scanning.sound.below key ownSeen)
            have high := visited.later
            omega
          · obtain ⟨above, grown, -⟩ := visited.stack
            exact ⟨z, grown ▸ mem_append_right above listed, number, .head edge path⟩
      · rw [min_eq_left (not_lt.mp less)] at resumed
        exact ih edgesRest resumed fewer
    · have seen : s.Seen next := not_not.mp (mt Search.isNone_iff.mpr fresh)
      split_ifs with linked
      · have met := scanning.met seen linked.2.le (fun _ => le_refl (s.indexOf next))
        have listed := (scanning.sound.flags next).mp linked.1
        exact ih edgesRest
          (met.lower (linked.2.le.trans scanning.lowLe) ⟨next, listed, rfl, .single edge⟩) enough
      · refine ih edgesRest (scanning.met seen (le_refl _) (fun below => ?_)) enough
        by_contra less
        have listed := (scanning.below_key next below).1
        exact linked ⟨(scanning.sound.flags next).mpr listed, not_le.mp less⟩

theorem visit_spec (closed : ∀ x ∈ universe_, ∀ y ∈ adjacency x, y ∈ universe_)
    (member : key ∈ universe_) (fresh : ¬ s.Seen key) (sound : Sound adjacency s greys)
    (reached : ∀ grey ∈ greys, Reach adjacency grey key) (enough : unseen universe_ s ≤ fuel) :
    ∃ after, visit adjacency fuel key s = some after ∧ Visited adjacency greys key s after := by
  induction fuel generalizing greys key s with
  | zero =>
    have none_left := Finset.card_eq_zero.mp (Nat.le_zero.mp enough)
    exact absurd (Finset.mem_filter.mpr ⟨member, fresh⟩) (none_left ▸ Finset.notMem_empty key)
  | succ fuel ih =>
    have fewer : unseen universe_ (s.enter key) ≤ fuel := by
      have less := unseen_enter member fresh
      omega
    obtain ⟨after, scanned, scanning⟩ := scan_spec reached (closed key member)
      (fun next s inside new soundNext greyReach enough => ih inside new soundNext greyReach enough)
      (fun _ listed => listed) (Scanning.start sound fresh reached) fewer
    refine ⟨after.leave key, ?_, scanning.leave sound reached⟩
    unfold visit
    rw [scanned]
    rfl

theorem sound_empty : Sound adjacency ({} : Search κ) [] where
  below := fun _ seen => absurd seen Bool.false_ne_true
  ordered := .nil
  stacked := nofun
  flags := fun _ => ⟨fun flag => absurd flag Bool.false_ne_true, nofun⟩
  greyStacked := nofun
  closed := fun _ seen => absurd seen Bool.false_ne_true
  climbs := nofun
  returns := nofun
  finished := fun _ => ⟨fun both => absurd both.1 Bool.false_ne_true, nofun⟩
  strong := nofun
  apart := nodup_nil

theorem Sound.stack_eq_nil (sound : Sound adjacency s []) : s.stack = [] := by
  refine eq_nil_iff_forall_not_mem.mpr (fun x listed => ?_)
  obtain ⟨grey, isGrey, -⟩ := sound.returns x listed
  exact absurd isGrey not_mem_nil

theorem Sound.seen_of_reach (sound : Sound adjacency s []) {x y : κ} (seen : s.Seen x)
    (path : Reach adjacency x y) : s.Seen y := by
  induction path with
  | refl => exact seen
  | tail _ edge ih => exact sound.closed _ ih not_mem_nil _ edge

section

variable {keys : List κ} (closed : ∀ x ∈ universe_, ∀ y ∈ adjacency x, y ∈ universe_)
  (inside : ∀ key ∈ keys, key ∈ universe_)

include closed inside

theorem visitAll_spec (sound : Sound adjacency s []) (enough : unseen universe_ s ≤ fuel) :
    ∃ after, visitAll adjacency fuel keys s = some after ∧ Sound adjacency after [] ∧
      (∀ x, s.Seen x → after.Seen x) ∧ (∀ key ∈ keys, after.Seen key) ∧
      ∀ x, after.Seen x → s.Seen x ∨ ∃ key ∈ keys, Reach adjacency key x := by
  induction keys generalizing s with
  | nil =>
    exact ⟨s, rfl, sound, fun _ seen => seen, nofun, fun _ seen => .inl seen⟩
  | cons key rest ih =>
    have go {next : Search κ} (soundNext : Sound adjacency next []) (met : next.Seen key)
        (grows : ∀ x, s.Seen x → next.Seen x)
        (source : ∀ x, next.Seen x → s.Seen x ∨ Reach adjacency key x) :
        ∃ after, visitAll adjacency fuel rest next = some after ∧ Sound adjacency after [] ∧
          (∀ x, s.Seen x → after.Seen x) ∧ (∀ other ∈ key :: rest, after.Seen other) ∧
          ∀ x, after.Seen x → s.Seen x ∨ ∃ other ∈ key :: rest, Reach adjacency other x := by
      obtain ⟨after, done, soundAfter, more, metRest, sourceRest⟩ := ih
        (fun other listed => inside other (mem_cons_of_mem key listed)) soundNext
        ((unseen_mono grows).trans enough)
      refine ⟨after, done, soundAfter, fun x before => more x (grows x before),
        forall_mem_cons.mpr ⟨more key met, metRest⟩, fun x seen => ?_⟩
      rcases sourceRest x seen with before | ⟨other, listed, path⟩
      · exact (source x before).imp_right (fun path => ⟨key, mem_cons_self, path⟩)
      · exact .inr ⟨other, mem_cons_of_mem key listed, path⟩
    unfold visitAll
    by_cases seen : s.Seen key
    · rw [if_neg (mt Search.isNone_iff.mp (not_not.mpr seen))]
      exact go sound seen (fun _ => id) (fun _ => .inl)
    · rw [if_pos (Search.isNone_iff.mpr seen)]
      obtain ⟨next, answered, visited⟩ := visit_spec closed (inside key mem_cons_self) seen
        sound nofun enough
      rw [answered]
      refine go visited.sound visited.seen (fun _ => visited.seen_of_seen) (fun x found => ?_)
      by_cases earlier : s.Seen x
      · exact .inl earlier
      · exact .inr (visited.source x found earlier)

/-- Every key that can be reached is in one of the components, they are disjoint, and each is
strongly connected. -/
theorem components_spec (enough : universe_.card ≤ fuel) :
    ∃ after, visitAll adjacency fuel keys ({} : Search κ) = some after ∧
      after.components.flatten.Nodup ∧
      (∀ x, (∃ component ∈ after.components, x ∈ component) ↔ ∃ key ∈ keys, Reach adjacency key x) ∧
      ∀ component ∈ after.components, component ≠ [] ∧ ∀ x ∈ component, ∀ y,
        y ∈ component ↔ Reach adjacency x y ∧ Reach adjacency y x := by
  obtain ⟨after, done, sound, -, met, source⟩ := visitAll_spec closed inside sound_empty
    ((Finset.card_filter_le _ _).trans enough)
  refine ⟨after, done, sound.apart, fun x => ?_, sound.strong⟩
  rw [← sound.finished x, sound.stack_eq_nil]
  constructor
  · intro both
    rcases source x both.1 with before | reached
    · exact absurd before Bool.false_ne_true
    · exact reached
  · rintro ⟨key, listed, path⟩
    exact ⟨sound.seen_of_reach (met key listed) path, not_mem_nil⟩

end

end Total

end McpLocalHub.Foundation.StrongComponents
