import LiveSheet.Proofs.Graph.PostOrder

namespace LiveSheet

/-!
# The turns of a walk, and what it asks for

A walk is a loop.  In each turn it finishes the node on top of its stack, or takes the next entry
off that node's list of dependents.  A list is put on the stack only when its node is entered, and
no node is entered twice, so the lists of the nodes entered bound the number of turns.

* `Search.Move`, `Search.Last` — what a turn does, and how the last one ends.
* `Search.Logged` — the invariant: the nodes asked for are those entered, and each was `Discovered`
  in a list asked for before.
* `Search.turn`, `Search.within` — one turn, and the loop for a number of turns; nothing is assumed
  about the nodes that it may meet.
* `Search.endsInTime_run`, `Search.within_induction`, `Search.within_congr` — the loop ends, in a
  state that has what every move keeps, and nothing that it did not ask for makes a difference.
* `recalcOrder_asks` — what this says about a walk.
-/

variable {N : Type}

/-! ### Nodes in the order of their discovery -/

/-- Nodes, the last one first, that begin with the start and of which every other one is a dependent
    of one before it. -/
inductive Discovered (dependents : N → List N) (start : N) : List N → Prop where
  | start : Discovered dependents start [start]
  | next {nodes : List N} {m n : N} (hnodes : Discovered dependents start nodes) (hm : m ∈ nodes)
      (hn : n ∈ dependents m) : Discovered dependents start (n :: nodes)

section Discovered

variable {dependents : N → List N} {start : N} {nodes : List N}

/-- All nodes that are discovered can be reached. -/
theorem Discovered.reaches (h : Discovered dependents start nodes) :
    ∀ n ∈ nodes, Reaches dependents start n := by
  induction h with
  | start =>
    intro n hn
    rw [List.mem_singleton.1 hn]
    exact .start
  | next _ hm hdep ih =>
    intro n hn
    rcases List.mem_cons.1 hn with rfl | hold
    · exact .next (ih _ hm) hdep
    · exact ih n hold

/-- The start is discovered first. -/
theorem Discovered.getLast?_eq (h : Discovered dependents start nodes) :
    nodes.getLast? = some start := by
  induction h with
  | start => rfl
  | next _ _ _ ih => rw [List.getLast?_cons, ih, Option.getD_some]

/-- Every node but the first is a dependent of one before it. -/
theorem Discovered.exists_earlier {later earlier : List N} {n : N}
    (h : Discovered dependents start (later ++ n :: earlier)) (hne : earlier ≠ []) :
    ∃ m ∈ earlier, n ∈ dependents m := by
  induction later with
  | nil =>
    cases h with
    | start => exact absurd rfl hne
    | next _ hm hn => exact ⟨_, hm, hn⟩
  | cons last later ih =>
    rw [List.cons_append] at h
    generalize hrest : later ++ n :: earlier = rest at h ih
    cases h with
    | start => exact absurd hrest (List.append_ne_nil_of_right_ne_nil _ (List.cons_ne_nil _ _))
    | next hnodes _ _ => exact ih hnodes

end Discovered

/-- The turns that some nodes can take up: one for each entry of their lists, and one to finish each
    of them. -/
def work (dependents : N → List N) (nodes : List N) : Nat :=
  (nodes.flatMap dependents).length + nodes.length

/-- The work of some nodes does not depend on their order. -/
theorem work_reverse (dependents : N → List N) (nodes : List N) :
    work dependents nodes.reverse = work dependents nodes := by
  rw [work, (nodes.reverse_perm.flatMap_right dependents).length_eq, List.length_reverse, work]

namespace Search

variable [Ord N] {dependents : N → List N} {start : N} {s t : Search N} {w : Walk N}

/-! ### What a turn does -/

/-- How the last turn ends a walk. -/
inductive Last (start : N) (s : Search N) : Walk N → Prop where
  | order (hs : s.stack = []) : Last start s ⟨s.asked.reverse, .ok s.finished⟩
  | cycle {node : N} {rest : List N} {below : List (Frame N)}
      (hs : s.stack = ⟨node, start :: rest⟩ :: below) :
      Last start s ⟨s.asked.reverse, .error (s.path ++ [start])⟩

/-- However a walk ends, it tells the nodes in the order in which it asked for them. -/
theorem Last.asked_eq (h : Last start s w) : w.asked = s.asked.reverse := by
  cases h <;> rfl

variable [Std.TransOrd N]

/-- What a turn does that does not end the walk. -/
inductive Move (dependents : N → List N) (start : N) (s : Search N) : Search N → Prop where
  | finish {node : N} {below : List (Frame N)} (hs : s.stack = ⟨node, []⟩ :: below) :
      Move dependents start s (s.finish node below)
  | skip {node next : N} {rest : List N} {below : List (Frame N)}
      (hs : s.stack = ⟨node, next :: rest⟩ :: below) (hne : next ≠ start)
      (hvisited : next ∈ s.visited) :
      Move dependents start s (s.withStack (⟨node, rest⟩ :: below))
  | enter {node next : N} {rest : List N} {below : List (Frame N)}
      (hs : s.stack = ⟨node, next :: rest⟩ :: below) (hne : next ≠ start)
      (hnew : ¬ next ∈ s.visited) :
      Move dependents start s ((s.withStack (⟨node, rest⟩ :: below)).enter dependents next)

/-- A move does one turn's work, and puts the work of a node that it enters on the stack. -/
theorem Move.load_add_work (h : Move dependents start s t) :
    t.load + 1 + work dependents s.asked = s.load + work dependents t.asked := by
  cases h with
  | finish hs =>
    simp only [Search.finish, load, hs, List.foldr_cons, List.length_nil]
    omega
  | skip hs _ _ =>
    simp only [withStack, load, hs, List.foldr_cons, List.length_cons]
    omega
  | enter hs _ _ =>
    simp only [Search.enter, withStack, load, work, hs, List.foldr_cons, List.length_cons,
      List.flatMap_cons, List.length_append]
    omega

/-- Nothing asked for is forgotten. -/
theorem Move.mem_asked (h : Move dependents start s t) {n : N} (hn : n ∈ s.asked) :
    n ∈ t.asked := by
  cases h with
  | finish _ => exact hn
  | skip _ _ _ => exact hn
  | enter _ _ _ => exact List.mem_cons_of_mem _ hn

/-! ### The nodes asked for -/

/-- The state of a walk that keeps account of the nodes that it asks for. -/
structure Logged (dependents : N → List N) (start : N) (s : Search N) : Prop where
  sound : s.Sound dependents start
  /-- Each node was found in a list that was asked for. -/
  discovered : Discovered dependents start s.asked
  /-- The nodes asked for are those entered. -/
  perm : s.asked.Perm s.trail

/-- If there is an order, its nodes are the nodes asked for. -/
theorem Logged.perm_order (h : s.Logged dependents start) (hlast : Last start s w) {order : List N}
    (horder : w.result = .ok order) : w.asked.Perm order := by
  cases hlast with
  | order hs =>
    cases horder
    exact s.asked.reverse_perm.trans (trail_of_stack_nil hs ▸ h.perm)
  | cycle hs => cases horder

section Logged

variable [Std.LawfulEqOrd N]

/-- At first the start is entered and asked for. -/
theorem logged_initial (dependents : N → List N) (start : N) :
    (initial dependents start).Logged dependents start :=
  ⟨sound_initial dependents start, .start, .refl [start]⟩

/-- A move keeps what a sound walk has entered. -/
theorem Sound.move (h : s.Sound dependents start) (hmove : Move dependents start s t) :
    t.Sound dependents start := by
  cases hmove with
  | finish hs => exact h.finish hs
  | skip hs hne hvisited => exact h.skip hs hne hvisited
  | enter hs hne hnew => exact h.enter hs hne hnew

/-- **A move keeps the account.** -/
theorem Logged.move (h : s.Logged dependents start) (hmove : Move dependents start s t) :
    t.Logged dependents start where
  sound := h.sound.move hmove
  discovered := by
    cases hmove with
    | finish _ => exact h.discovered
    | skip _ _ _ => exact h.discovered
    | @enter node next rest below hs _ _ =>
      -- the node on top was entered before, so its list was asked for
      have hnode : node ∈ s.asked := h.perm.mem_iff.2 (List.mem_append_left _ (mem_path hs))
      exact .next h.discovered hnode
        (h.sound.pending _ (hs ▸ List.mem_cons_self) next List.mem_cons_self)
  perm := by
    cases hmove with
    | finish hs => rw [trail_finish hs]; exact h.perm
    | skip hs _ _ => rw [trail_skip hs]; exact h.perm
    | enter hs _ _ =>
      rw [trail_enter hs]
      exact (h.perm.cons _).trans List.perm_middle.symm

end Logged

/-! ### The loop -/

variable [DecidableEq N]

/-- One turn of the loop: the walk goes on in another state, or it ends. -/
def turn (dependents : N → List N) (start : N) (s : Search N) : Search N ⊕ Walk N :=
  match s.stack with
  | [] => .inr ⟨s.asked.reverse, .ok s.finished⟩
  | ⟨node, []⟩ :: below => .inl (s.finish node below)
  | ⟨node, next :: rest⟩ :: below =>
    if next = start then .inr ⟨s.asked.reverse, .error (s.path ++ [start])⟩
    else if next ∈ s.visited then .inl (s.withStack (⟨node, rest⟩ :: below))
    else .inl ((s.withStack (⟨node, rest⟩ :: below)).enter dependents next)

/-- What the loop finds, if it ends within a number of turns. -/
def within (dependents : N → List N) (start : N) : Nat → Search N → Option (Walk N)
  | 0, _ => none
  | turns + 1, s =>
    match s.turn dependents start with
    | .inl next => within dependents start turns next
    | .inr walk => some walk

/-- A turn after which the loop goes on is a move. -/
theorem move_of_turn (h : s.turn dependents start = .inl t) : Move dependents start s t := by
  unfold turn at h
  split at h
  · cases h
  · next hs => cases h; exact .finish hs
  · next hs =>
    split at h
    · cases h
    · next hne =>
      split at h
      · next hvisited => cases h; exact .skip hs hne hvisited
      · next hnew => cases h; exact .enter hs hne hnew

/-- A turn after which the loop ends is a last one. -/
theorem last_of_turn (h : s.turn dependents start = .inr w) : Last start s w := by
  unfold turn at h
  split at h
  · next hs => cases h; exact .order hs
  · cases h
  · next hs =>
    split at h
    · next heq => cases h; cases heq; exact .cycle hs
    · split at h <;> cases h

/-- Every move is what the turn does. -/
theorem turn_of_move (h : Move dependents start s t) : s.turn dependents start = .inl t := by
  cases h with
  | finish hs => simp only [turn, hs]
  | skip hs hne hvisited => simp only [turn, hs, hne, hvisited, if_true, if_false]
  | enter hs hne hnew => simp only [turn, hs, hne, hnew, if_false]

/-- Every end is what the turn gives. -/
theorem turn_of_last (h : Last start s w) : s.turn dependents start = .inr w := by
  cases h with
  | order hs => simp only [turn, hs]
  | cycle hs => simp only [turn, hs, if_true]

/-- **What a move keeps, the loop keeps.** -/
theorem within_induction {P : Search N → Prop}
    (hmove : ∀ s t, P s → Move dependents start s t → P t) {turns : Nat}
    (h : within dependents start turns s = some w) (hs : P s) :
    ∃ last, P last ∧ Last start last w := by
  induction turns generalizing s with
  | zero => cases h
  | succ turns ih =>
    rw [within] at h
    cases hturn : s.turn dependents start with
    | inl t =>
      rw [hturn] at h
      exact ih h (hmove s t hs (move_of_turn hturn))
    | inr walk =>
      rw [hturn] at h
      cases h
      exact ⟨s, hs, last_of_turn hturn⟩

/-- What was asked for is told in the end. -/
theorem mem_asked_of_within {turns : Nat} (h : within dependents start turns s = some w) {n : N}
    (hn : n ∈ s.asked) : n ∈ w.asked := by
  obtain ⟨last, hmem, hlast⟩ :=
    within_induction (P := fun t => n ∈ t.asked) (fun _ _ hs hmove => hmove.mem_asked hs) h hn
  rw [hlast.asked_eq, List.mem_reverse]
  exact hmem

/-- **What is not asked for makes no difference.**  If the loop ends, then with other lists of
    dependents it takes the same turns, as long as the lists that it asked for are the same. -/
theorem within_congr {others : N → List N} {turns : Nat}
    (h : within dependents start turns s = some w) (hsame : ∀ n ∈ w.asked, others n = dependents n)
    (k : Nat) : within others start k s = within dependents start k s := by
  induction k generalizing s turns with
  | zero => rfl
  | succ k ih =>
    cases turns with
    | zero => cases h
    | succ turns =>
      rw [within] at h
      rw [within, within]
      cases hturn : s.turn dependents start with
      | inr walk => rw [turn_of_last (last_of_turn hturn)]
      | inl t =>
        rw [hturn] at h
        have hmove : Move others start s t := by
          cases move_of_turn hturn with
          | finish hs => exact .finish hs
          | skip hs hne hvisited => exact .skip hs hne hvisited
          | @enter node next rest below hs hne hnew =>
            -- the list of a node that is entered is asked for
            have hnext : others next = dependents next :=
              hsame next (mem_asked_of_within h List.mem_cons_self)
            have henter : Move others start s
                ((s.withStack (⟨node, rest⟩ :: below)).enter others next) := .enter hs hne hnew
            rw [Search.enter, hnext] at henter
            exact henter
        rw [turn_of_move hmove]
        exact ih h

/-! ### The number of turns -/

/-- The loop ends, and takes no more turns than what is on the stack and the nodes that it goes on
    to enter can take up. -/
def EndsInTime (dependents : N → List N) (start : N) (s : Search N) (w : Walk N) : Prop :=
  ∃ turns, within dependents start turns s = some w ∧
    turns + work dependents s.asked ≤ work dependents w.asked + s.load + 1

/-- A last turn ends in time. -/
theorem Last.endsInTime (h : Last start s w) : EndsInTime dependents start s w := by
  refine ⟨1, ?_, ?_⟩
  · rw [within, turn_of_last h]
  · rw [h.asked_eq, work_reverse]
    omega

/-- If the loop ends in time after a move, it does so with the move. -/
theorem Move.endsInTime (hmove : Move dependents start s t) (h : EndsInTime dependents start t w) :
    EndsInTime dependents start s w := by
  obtain ⟨turns, hturns, hle⟩ := h
  have hwork := hmove.load_add_work
  refine ⟨turns + 1, ?_, ?_⟩
  · rw [within, turn_of_move hmove]
    exact hturns
  · omega

/-- **The loop ends with what the walk finds**, if only finitely many nodes can be reached. -/
theorem endsInTime_run [Std.LawfulEqOrd N] (finite : FinitelyReachable dependents start)
    (s : Search N) (reachable : s.PendingReachable dependents start) :
    EndsInTime dependents start s (run dependents start finite s reachable) := by
  fun_induction run dependents start finite s reachable with
  | case1 s _ hs => exact (Last.order hs).endsInTime
  | case2 s _ node below hs ih => exact (Move.finish hs).endsInTime ih
  | case3 s _ node rest below hs => exact (Last.cycle hs).endsInTime
  | case4 s _ node next rest below hs _ _ hne hvisited ih =>
    exact (Move.skip hs hne hvisited).endsInTime ih
  | case5 s _ node next rest below hs _ _ hne hnew ih =>
    exact (Move.enter hs hne hnew).endsInTime ih

end Search

/-! ### What a walk asks for -/

section RecalcOrder

open Search

variable [Ord N] [Std.TransOrd N] [Std.LawfulEqOrd N] [DecidableEq N]

/-- **A walk ends, and asks for each node once.**
    * The loop ends with what the walk finds, within one turn for each node asked for and each entry
      of the lists of these nodes, and one more.
    * Only nodes that can be reached are asked for, and none twice.
    * The start is asked for first, and every later node is a dependent of one asked for before.
    * If the walk gives an order, its nodes are the nodes asked for.
    * With other lists of dependents the loop does the same, if the lists asked for are the same. -/
theorem recalcOrder_asks (dependents : N → List N) (start : N)
    (finite : FinitelyReachable dependents start) :
    let walk := recalcOrder dependents start finite
    (∃ turns ≤ work dependents walk.asked + 1,
      within dependents start turns (initial dependents start) = some walk) ∧
    (∀ n ∈ walk.asked, Reaches dependents start n) ∧ walk.asked.Nodup ∧
    walk.asked.head? = some start ∧
    (∀ earlier n later, walk.asked = earlier ++ n :: later → earlier ≠ [] →
      ∃ m ∈ earlier, n ∈ dependents m) ∧
    (∀ order, walk.result = .ok order → walk.asked.Perm order) ∧
    ∀ others, (∀ n ∈ walk.asked, others n = dependents n) → ∀ turns,
      within others start turns (initial others start)
        = within dependents start turns (initial dependents start) := by
  intro walk
  obtain ⟨turns, hturns, hle⟩ : EndsInTime dependents start (initial dependents start) walk :=
    endsInTime_run finite _ _
  obtain ⟨last, hlogged, hlast⟩ : ∃ last, last.Logged dependents start ∧ Last start last walk :=
    within_induction (P := Logged dependents start) (fun _ _ h hmove => h.move hmove) hturns
      (logged_initial dependents start)
  have hasked : walk.asked = last.asked.reverse := hlast.asked_eq
  have hhead : walk.asked.head? = some start := by
    rw [hasked, List.head?_reverse]
    exact hlogged.discovered.getLast?_eq
  refine ⟨⟨turns, ?_, hturns⟩, fun n hn => ?_, ?_, hhead, fun earlier n later hcut hne => ?_,
    fun order horder => hlogged.perm_order hlast horder, fun others hsame k => ?_⟩
  · -- at first the start is on the stack, with all its work
    have hload : (initial dependents start).load
        = work dependents (initial dependents start).asked := by
      simp [initial, load, work]
    omega
  · rw [hasked, List.mem_reverse] at hn
    exact hlogged.discovered.reaches n hn
  · rw [hasked, List.nodup_reverse, hlogged.perm.nodup_iff]
    exact hlogged.sound.nodup
  · have hreverse : last.asked = later.reverse ++ n :: earlier.reverse := by
      rw [← last.asked.reverse_reverse, ← hasked, hcut, List.reverse_append, List.reverse_cons,
        List.append_assoc, List.singleton_append]
    have hdiscovered := hlogged.discovered
    rw [hreverse] at hdiscovered
    obtain ⟨m, hm, hn⟩ := hdiscovered.exists_earlier (mt List.reverse_eq_nil_iff.1 hne)
    exact ⟨m, List.mem_reverse.1 hm, hn⟩
  · have hfirst : others start = dependents start := hsame start (List.mem_of_head? hhead)
    have hinitial : initial others start = initial dependents start := by
      rw [initial, hfirst, initial]
    rw [hinitial]
    exact within_congr hturns hsame k

/-- From `0`, the top of the diamond, each of the six nodes is asked for once, though `2` is listed
    twice and `3` by itself, and the loop ends within seventeen turns. -/
theorem recalcOrder_asks_tangled :
    let walk := recalcOrder tangled 0 (finitelyReachable_tangled 0)
    walk.asked = [0, 1, 3, 5, 4, 2] ∧ walk.result = .ok [0, 2, 1, 3, 4, 5] ∧
      (∃ turns ≤ 17, within tangled 0 turns (initial tangled 0) = some walk) ∧
      (∀ n ∈ walk.asked, Reaches tangled 0 n) ∧ walk.asked.Nodup ∧
      walk.asked.Perm [0, 2, 1, 3, 4, 5] := by
  have hasked : (recalcOrder tangled 0 (finitelyReachable_tangled 0)).asked
      = [0, 1, 3, 5, 4, 2] := by cbv
  have hresult : (recalcOrder tangled 0 (finitelyReachable_tangled 0)).result
      = .ok [0, 2, 1, 3, 4, 5] := by cbv
  obtain ⟨⟨turns, hle, hturns⟩, hreached, hnodup, -, -, hperm, -⟩ :=
    recalcOrder_asks tangled 0 (finitelyReachable_tangled 0)
  rw [hasked] at hle
  exact ⟨hasked, hresult, ⟨turns, hle, hturns⟩, hreached, hnodup, hperm _ hresult⟩

end RecalcOrder

end LiveSheet
